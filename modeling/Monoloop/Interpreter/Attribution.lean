import Monoloop.Lib.Extrema
import Monoloop.Interpreter.Assembly

/-!
# Source attribution

A channel keeps, beside its segmenter, run-length spans of the fragments in the
buffer: so many bytes, from a fragment with this source time and step. A
completed sentence takes the spans of the bytes it consumed and observes those
of its content (`engine.rs`).

The specification tags every character with its fragment. A sentence is
attributed to the fragments of its own characters (`Attributed`). For the
sentences of the ordinary path that is what the spans give. A seal trims the
rest of the buffer at both ends but counts the content from the first byte on,
and `attributed_iff_aligned` says when nobody can tell.
-/

namespace Monoloop.Interpreter

open Extrema Utf8

/-! ## The assembly of one channel -/

/-- What a fragment says of its source. -/
structure Source where
  time : Option Nat
  step : Option Nat
  deriving DecidableEq

structure SourceTimeObservation where
  firstMs : Nat
  lastMs : Nat
  deriving DecidableEq

namespace SourceTimeObservation

def point (ms : Nat) : SourceTimeObservation := ⟨ms, ms⟩

def fromBounds : Option Nat → Option Nat → Option SourceTimeObservation
  | some f, some l => some ⟨min f l, max f l⟩
  | some t, none => some (point t)
  | none, some t => some (point t)
  | none, none => none

end SourceTimeObservation

/-- Observational metadata of a completed sentence. -/
structure SentenceSourceMeta where
  time : Option SourceTimeObservation
  step : Option Nat
  deriving DecidableEq

/-- A run of buffered bytes of one fragment. -/
structure Span where
  len : Nat
  source : Source
  deriving DecidableEq

structure ChannelAssembly where
  segmenter : SentenceSegmenter := .new
  spans : List Span := []

/-- What `take_spans` has seen so far. -/
structure Window where
  first : Option Nat := none
  last : Option Nat := none
  stepMin : Option Nat := none

namespace Window

def observe (w : Window) (source : Source) : Window where
  first := minWith w.first source.time
  last := maxWith w.last source.time
  stepMin := minWith w.stepMin source.step

def toMeta (w : Window) : SentenceSourceMeta where
  time := SourceTimeObservation.fromBounds w.first w.last
  step := w.stepMin

end Window

/-- The loop of `take_spans`, over the spans that are left. -/
def takeSpansLoop (contentBytes : Nat) : List Span → Nat → Nat → Window → Window × List Span
  | [], _, _, w => (w, [])
  | span :: spans, seen, remaining, w =>
      if remaining = 0 then (w, span :: spans)
      else
        let take := min span.len remaining
        -- only content bytes contribute, not the white space after them
        let contentTake := if seen < contentBytes then min take (contentBytes - seen) else 0
        let w := if 0 < contentTake then w.observe span.source else w
        if span.len - take = 0 then
          takeSpansLoop contentBytes spans (seen + take) (remaining - take) w
        else
          -- the span is longer than what remained, and the loop is over
          (w, { span with len := span.len - take } :: spans)

def takeSpans (spans : List Span) (contentBytes bytesConsumed : Nat) :
    SentenceSourceMeta × List Span :=
  let (w, spans) := takeSpansLoop contentBytes spans 0 bytesConsumed {}
  (w.toMeta, spans)

/-- Completed sentences take their spans in order. -/
def attributeAll : List CompletedSentence → List Span → List (Str × SentenceSourceMeta) × List Span
  | [], spans => ([], spans)
  | c :: completed, spans =>
      let (sourceMeta, spans) := takeSpans spans c.contentBytes c.bytesConsumed
      let (said, spans) := attributeAll completed spans
      ((c.content, sourceMeta) :: said, spans)

namespace ChannelAssembly

def push (c : ChannelAssembly) (text : Str) (source : Source) :
    List (Str × SentenceSourceMeta) × ChannelAssembly :=
  let spans := if text ≠ [] then c.spans ++ [⟨(bytes text).length, source⟩] else c.spans
  let (completed, segmenter) := c.segmenter.pushed text
  let (said, spans) := attributeAll completed spans
  (said, { segmenter, spans })

def sealed (c : ChannelAssembly) : List (Str × SentenceSourceMeta) × ChannelAssembly :=
  let (completed, segmenter) := c.segmenter.sealed
  let (said, spans) := attributeAll completed c.spans
  (said, { segmenter, spans })

def takeUnresolved (c : ChannelAssembly) : ChannelAssembly where
  segmenter := c.segmenter.takeUnresolved.2
  spans := []

end ChannelAssembly

theorem contents_attributeAll (completed : List CompletedSentence) (spans : List Span) :
    (attributeAll completed spans).1.map Prod.fst = completed.map CompletedSentence.content := by
  induction completed generalizing spans with
  | nil => rfl
  | cons c completed ih =>
      unfold attributeAll
      simp only [List.map_cons, ih]

/-- The sentences of a push are those of the segmenter, which is what the
assembly of units works with. -/
theorem ChannelAssembly.push_contents (c : ChannelAssembly) (text : Str) (source : Source) :
    (c.push text source).1.map Prod.fst =
        (c.segmenter.pushed text).1.map CompletedSentence.content ∧
      (c.push text source).2.segmenter = (c.segmenter.pushed text).2 :=
  ⟨contents_attributeAll _ _, rfl⟩

theorem ChannelAssembly.sealed_contents (c : ChannelAssembly) :
    c.sealed.1.map Prod.fst = c.segmenter.sealed.1.map CompletedSentence.content ∧
      c.sealed.2.segmenter = c.segmenter.sealed.2 :=
  ⟨contents_attributeAll _ _, rfl⟩

/-- What happens to a channel. -/
inductive ChannelOp where
  | push (text : Str)
  | sealed
  | takeUnresolved
  deriving DecidableEq

def ChannelAssembly.apply (c : ChannelAssembly) (source : Source) :
    ChannelOp → List (Str × SentenceSourceMeta) × ChannelAssembly
  | .push text => c.push text source
  | .sealed => c.sealed
  | .takeUnresolved => ([], c.takeUnresolved)

/-! ## The specification -/

/-- Buffered characters, each with the number of its fragment. -/
abbrev Tagged := List (Char × Nat)

def Tagged.text (held : Tagged) : Str := held.map Prod.fst

/-- The characters that an operation brings, as the `i`-th. -/
def ChannelOp.tagged (i : Nat) : ChannelOp → Tagged
  | .push text => text.map fun c => (c, i)
  | _ => []

/-- Minimum and maximum of the times, and minimum of the steps, of some sources. -/
structure Attributes (sourceMeta : SentenceSourceMeta) (sources : List Source) : Prop where
  first : LeastOf (sourceMeta.time.map SourceTimeObservation.firstMs)
    (present (sources.map Source.time))
  last : GreatestOf (sourceMeta.time.map SourceTimeObservation.lastMs)
    (present (sources.map Source.time))
  step : LeastOf sourceMeta.step (present (sources.map Source.step))

/-- Each sentence is a piece of the held text, after white space, and attributed
to the fragments of its own characters. -/
inductive Attributed (sources : Nat → Source) : Tagged → List (Str × SentenceSourceMeta) → Prop where
  | nil {held} : Attributed sources held []
  | cons {white content rest : Tagged} {sourceMeta said} : visible white.text = [] →
      Attributes sourceMeta (content.map fun x => sources x.2) → Attributed sources rest said →
      Attributed sources (white ++ (content ++ rest)) ((content.text, sourceMeta) :: said)

/-- The spans sum to the bytes in the segmenter's buffer. -/
def ChannelAssembly.Held (c : ChannelAssembly) : Prop :=
  (c.spans.map Span.len).sum = c.segmenter.bufferedBytes

/-- **Spans and attributions are right throughout**: at every operation, with
`sources i` what the `i`-th fragment says of its source and `held` the buffered
characters by fragment. -/
def RightThroughout (sources : Nat → Source) :
    Nat → ChannelAssembly → Tagged → List ChannelOp → Prop
  | _, c, _, [] => c.Held
  | i, c, held, op :: ops =>
      let held := held ++ op.tagged i
      let (said, c') := c.apply (sources i) op
      c.Held ∧ Attributed sources held said ∧
        RightThroughout sources (i + 1) c' (held.drop (held.length - c'.segmenter.buf.length)) ops

/-! ## Spans, expanded -/

/-- The source of every byte. -/
def expand (spans : List Span) : List Source := spans.flatMap fun s => List.replicate s.len s.source

theorem expand_cons (span : Span) (spans : List Span) :
    expand (span :: spans) = List.replicate span.len span.source ++ expand spans := rfl

theorem expand_append (p q : List Span) : expand (p ++ q) = expand p ++ expand q :=
  List.flatMap_append

theorem length_expand (spans : List Span) : (expand spans).length = (spans.map Span.len).sum := by
  induction spans with
  | nil => rfl
  | cons span spans ih =>
      rw [expand_cons, List.length_append, List.length_replicate, ih, List.map_cons, List.sum_cons]

theorem Window.observe_idem (w : Window) (source : Source) :
    (w.observe source).observe source = w.observe source := by
  simp only [Window.observe, minWith_idem, maxWith_idem]

/-- The bytes of one fragment count once. -/
theorem foldl_observe_replicate (w : Window) (source : Source) (n : Nat) :
    (List.replicate n source).foldl Window.observe w = if 0 < n then w.observe source else w := by
  induction n with
  | zero => rfl
  | succ n ih =>
      rw [List.replicate_succ', List.foldl_append, ih]
      by_cases hn : 0 < n
      · simp [hn, Window.observe_idem]
      · simp [hn]

/-- **The loop observes the content bytes and drops the consumed ones.** -/
theorem takeSpansLoop_eq (contentBytes : Nat) (spans : List Span) (seen remaining : Nat) (w : Window)
    (h : remaining ≤ (expand spans).length) :
    (takeSpansLoop contentBytes spans seen remaining w).1 =
        ((expand spans).take (min remaining (contentBytes - seen))).foldl Window.observe w ∧
      expand (takeSpansLoop contentBytes spans seen remaining w).2 =
        (expand spans).drop remaining := by
  induction spans generalizing seen remaining w with
  | nil =>
      obtain rfl : remaining = 0 := Nat.le_zero.mp h
      exact ⟨by simp [takeSpansLoop, expand], rfl⟩
  | cons span spans ih =>
      by_cases hzero : remaining = 0
      · subst hzero
        simp [takeSpansLoop]
      · have htake : (if seen < contentBytes then
            min (min span.len remaining) (contentBytes - seen) else 0) =
            min (min span.len remaining) (contentBytes - seen) := by
          split
          · rfl
          · omega
        rw [expand_cons, List.length_append, List.length_replicate] at h
        unfold takeSpansLoop
        simp only [if_neg hzero, htake]
        rw [expand_cons, List.take_append, List.foldl_append, List.take_replicate,
          List.length_replicate, ← foldl_observe_replicate w span.source]
        by_cases hlong : span.len ≤ remaining
        · rw [Nat.min_eq_left hlong, if_pos (Nat.sub_self _)]
          obtain ⟨hw, hspans⟩ := ih (seen + span.len) (remaining - span.len)
            ((List.replicate (min span.len (contentBytes - seen)) span.source).foldl
              Window.observe w) (by omega)
          constructor
          · rw [hw, show min (min remaining (contentBytes - seen)) span.len =
                min span.len (contentBytes - seen) by omega,
              show min (remaining - span.len) (contentBytes - (seen + span.len)) =
                min remaining (contentBytes - seen) - span.len by omega]
          · rw [hspans, List.drop_append, List.length_replicate, List.drop_replicate,
              Nat.sub_eq_zero_of_le hlong, List.replicate_zero, List.nil_append]
        · rw [Nat.min_eq_right (by omega), if_neg (by omega)]
          constructor
          · rw [show min (min remaining (contentBytes - seen)) span.len =
                min remaining (contentBytes - seen) by omega,
              show min remaining (contentBytes - seen) - span.len = 0 by omega,
              List.take_zero, List.foldl_nil]
          · rw [expand_cons, List.drop_append, List.length_replicate, List.drop_replicate,
              show remaining - span.len = 0 by omega, List.drop_zero]

theorem takeSpans_eq {spans : List Span} {contentBytes bytesConsumed : Nat}
    (hcontent : contentBytes ≤ bytesConsumed) (h : bytesConsumed ≤ (expand spans).length) :
    (takeSpans spans contentBytes bytesConsumed).1 =
        (((expand spans).take contentBytes).foldl Window.observe {}).toMeta ∧
      expand (takeSpans spans contentBytes bytesConsumed).2 = (expand spans).drop bytesConsumed := by
  obtain ⟨hw, hspans⟩ := takeSpansLoop_eq contentBytes spans 0 bytesConsumed {} h
  refine ⟨?_, hspans⟩
  show (takeSpansLoop contentBytes spans 0 bytesConsumed {}).1.toMeta = _
  rw [hw, Nat.sub_zero, Nat.min_eq_right hcontent]

/-! ## What a window attributes -/

theorem foldl_observe (sources : List Source) (w : Window) :
    sources.foldl Window.observe w =
      { first := (sources.map Source.time).foldl minWith w.first
        last := (sources.map Source.time).foldl maxWith w.last
        stepMin := (sources.map Source.step).foldl minWith w.stepMin } := by
  induction sources generalizing w with
  | nil => rfl
  | cons source sources ih =>
      rw [List.foldl_cons, ih]
      rfl

/-- **The metadata is that of the sources observed.** -/
theorem attributes_observed (sources : List Source) :
    Attributes (sources.foldl Window.observe {}).toMeta sources := by
  rw [foldl_observe]
  have hfirst := leastOf_foldl (sources.map Source.time)
  have hlast := greatestOf_foldl (sources.map Source.time)
  have hbounds :
      (SourceTimeObservation.fromBounds ((sources.map Source.time).foldl minWith none)
        ((sources.map Source.time).foldl maxWith none)).map SourceTimeObservation.firstMs =
          (sources.map Source.time).foldl minWith none ∧
      (SourceTimeObservation.fromBounds ((sources.map Source.time).foldl minWith none)
        ((sources.map Source.time).foldl maxWith none)).map SourceTimeObservation.lastMs =
          (sources.map Source.time).foldl maxWith none := by
    cases hf : (sources.map Source.time).foldl minWith none with
    | none =>
        rw [hf] at hfirst
        cases hl : (sources.map Source.time).foldl maxWith none with
        | none => exact ⟨rfl, rfl⟩
        | some l =>
            -- there is no greatest without a least
            rw [hl] at hlast
            have hmem : l ∈ present (sources.map Source.time) := hlast.1
            rw [show present (sources.map Source.time) = ∅ from hfirst] at hmem
            exact absurd hmem (Set.notMem_empty l)
    | some f =>
        rw [hf] at hfirst
        cases hl : (sources.map Source.time).foldl maxWith none with
        | none =>
            rw [hl] at hlast
            have hmem : f ∈ present (sources.map Source.time) := hfirst.1
            rw [show present (sources.map Source.time) = ∅ from hlast] at hmem
            exact absurd hmem (Set.notMem_empty f)
        | some l =>
            rw [hl] at hlast
            have hle : f ≤ l := hlast.2 hfirst.1
            simp [SourceTimeObservation.fromBounds, hle]
  refine ⟨?_, ?_, leastOf_foldl (sources.map Source.step)⟩
  · show LeastOf ((SourceTimeObservation.fromBounds _ _).map _) _
    rw [hbounds.1]
    exact hfirst
  · show GreatestOf ((SourceTimeObservation.fromBounds _ _).map _) _
    rw [hbounds.2]
    exact hlast

/-- Which sources are there is all that matters. -/
theorem Attributes.congr {sourceMeta : SentenceSourceMeta} {sources sources' : List Source}
    (h : Attributes sourceMeta sources) (hsame : ∀ s, s ∈ sources ↔ s ∈ sources') :
    Attributes sourceMeta sources' := by
  have htimes : present (sources.map Source.time) = present (sources'.map Source.time) := by
    ext n
    simp only [present, Set.mem_ofPred_eq, List.mem_map, hsame]
  have hsteps : present (sources.map Source.step) = present (sources'.map Source.step) := by
    ext n
    simp only [present, Set.mem_ofPred_eq, List.mem_map, hsame]
  exact ⟨htimes ▸ h.first, htimes ▸ h.last, hsteps ▸ h.step⟩

/-! ## Tagged text -/

/-- The fragment of every byte. -/
def byteTags (held : Tagged) : List Nat :=
  held.flatMap fun x => List.replicate (bytes [x.1]).length x.2

theorem byteTags_append (p q : Tagged) : byteTags (p ++ q) = byteTags p ++ byteTags q :=
  List.flatMap_append

theorem text_append (p q : Tagged) : (p ++ q : Tagged).text = p.text ++ q.text := List.map_append

theorem length_byteTags (held : Tagged) : (byteTags held).length = (bytes held.text).length := by
  induction held with
  | nil => rfl
  | cons x held ih =>
      have hcons : byteTags (x :: held) =
          List.replicate (bytes [x.1]).length x.2 ++ byteTags held := rfl
      have htext : Tagged.text (x :: held) = [x.1] ++ Tagged.text held := rfl
      rw [hcons, htext, List.length_append, List.length_replicate, ih, bytes_append,
        List.length_append]

theorem mem_byteTags {held : Tagged} {i : Nat} : i ∈ byteTags held ↔ ∃ x ∈ held, x.2 = i := by
  unfold byteTags
  rw [List.mem_flatMap]
  constructor
  · rintro ⟨x, hx, hi⟩
    exact ⟨x, hx, (List.eq_of_mem_replicate hi).symm⟩
  · rintro ⟨x, hx, rfl⟩
    refine ⟨x, hx, List.mem_replicate.mpr ⟨?_, rfl⟩⟩
    have hlen := length_le_length_bytes [x.1]
    simp only [List.length_singleton] at hlen
    omega

/-- A piece is attributed by its bytes as much as by its characters. -/
theorem mem_sources_iff (sources : Nat → Source) (content : Tagged) (s : Source) :
    s ∈ (byteTags content).map sources ↔ s ∈ content.map fun x => sources x.2 := by
  simp only [List.mem_map, mem_byteTags]
  constructor
  · rintro ⟨i, ⟨x, hx, rfl⟩, hs⟩
    exact ⟨x, hx, hs⟩
  · rintro ⟨x, hx, hs⟩
    exact ⟨x.2, ⟨x, hx, rfl⟩, hs⟩

theorem Attributed.white {sources : Nat → Source} {white held : Tagged}
    {said : List (Str × SentenceSourceMeta)} (h : Attributed sources held said)
    (hwhite : visible white.text = []) : Attributed sources (white ++ held) said := by
  cases h with
  | nil => exact .nil
  | cons hwhite' hmeta hrest =>
      rw [← List.append_assoc]
      refine .cons ?_ hmeta hrest
      rw [text_append, visible_append, hwhite, hwhite']
      rfl

/-- What `trimEnd` takes off is white. -/
theorem exists_trimEnd (a : Str) : ∃ tail, a = trimEnd a ++ tail ∧ visible tail = [] := by
  obtain ⟨tail, htail⟩ : trimEnd a <+: a := List.rdropWhile_prefix _ _
  refine ⟨tail, htail.symm, ?_⟩
  have hvisible := congrArg visible htail
  rw [visible_append, visible_trimEnd] at hvisible
  exact List.append_right_eq_self.mp hvisible

theorem text_eq_append {held : Tagged} {p q : Str} (h : held.text = p ++ q) :
    ∃ hp hq : Tagged, held = hp ++ hq ∧ hp.text = p ∧ hq.text = q := by
  obtain ⟨hp, hq, hheld, rfl, rfl⟩ := List.map_eq_append_iff.mp h
  exact ⟨hp, hq, hheld, rfl, rfl⟩

/-- **The ordinary path is right**: a drain attributes every sentence to the
fragments of its characters and leaves the spans of what it leaves. -/
theorem drains_attributed {sources : Nat → Source} {s rest : Str} {completed : List CompletedSentence}
    (h : Drains s completed rest) {held : Tagged} (htext : held.text = s) {spans : List Span}
    (hspans : expand spans = (byteTags held).map sources) :
    ∃ taken left : Tagged, held = taken ++ left ∧ left.text = rest ∧
      Attributed sources held (attributeAll completed spans).1 ∧
      expand (attributeAll completed spans).2 = (byteTags left).map sources := by
  induction h generalizing held spans with
  | done _ => exact ⟨[], held, rfl, htext, .nil, hspans⟩
  | @turn a w q completed rest _ _ hw _ _ ih =>
      obtain ⟨ha, hwq, rfl, hat, hwqt⟩ := text_eq_append htext
      obtain ⟨hw', hq, rfl, hwt, hqt⟩ := text_eq_append hwqt
      obtain ⟨tail, htail, hvisible⟩ := exists_trimEnd a
      obtain ⟨content, ht, rfl, hct, htt⟩ := text_eq_append (hat.trans htail)
      -- the bytes of the content come first, then those of the white space
      have hcontent : (byteTags content).length = (bytes (trimEnd a)).length := by
        rw [length_byteTags, hct]
      have hconsumed : (byteTags (content ++ ht) ++ byteTags hw').length =
          (bytes a).length + (bytes w).length := by
        rw [List.length_append, length_byteTags, length_byteTags, hat, hwt]
      have hall : expand spans = ((byteTags (content ++ ht) ++ byteTags hw') ++ byteTags hq).map
          sources := by
        rw [hspans, byteTags_append, byteTags_append hw', List.append_assoc]
      have hshort : (bytes (trimEnd a)).length ≤ (bytes a).length := by
        rw [congrArg bytes htail, bytes_append, List.length_append]
        omega
      obtain ⟨hmeta, hleft⟩ := @takeSpans_eq spans (bytes (trimEnd a)).length
        ((bytes a).length + (bytes w).length) (by omega)
        (by rw [hall, List.length_map, List.length_append, hconsumed]; omega)
      have htake : (expand spans).take (bytes (trimEnd a)).length =
          (byteTags content).map sources := by
        rw [hall, byteTags_append, List.append_assoc, List.append_assoc, List.map_append,
          List.take_left' (by rw [List.length_map, hcontent])]
      rw [htake] at hmeta
      rw [hall, List.map_append, List.drop_left' (by rw [List.length_map, hconsumed])] at hleft
      obtain ⟨taken, left, hheld, hleftt, hattributed, hexpand⟩ := ih hqt hleft
      refine ⟨content ++ ht ++ hw' ++ taken, left, ?_, hleftt, ?_, hexpand⟩
      · rw [hheld]
        simp only [List.append_assoc]
      · have hrest : Attributed sources ((ht ++ hw') ++ hq)
            (attributeAll completed (takeSpans spans (bytes (trimEnd a)).length
              ((bytes a).length + (bytes w).length)).2).1 := by
          apply hattributed.white
          rw [text_append, visible_append, htt, hwt, hvisible, hw.visible]
          rfl
        have hattributes : Attributes
            (takeSpans spans (bytes (trimEnd a)).length ((bytes a).length + (bytes w).length)).1
            (content.map fun x => sources x.2) := by
          rw [hmeta]
          exact (attributes_observed _).congr (mem_sources_iff sources content)
        have hone := @Attributed.cons sources [] content _ _ _ rfl hattributes hrest
        rw [hct] at hone
        have hsplit : content ++ ht ++ (hw' ++ hq) = [] ++ (content ++ ((ht ++ hw') ++ hq)) := by
          simp only [List.nil_append, List.append_assoc]
        rw [hsplit]
        exact hone

/-! ## The seal -/

/-- The content of a sealed rest is attributed by as many bytes from the first
one on, instead of its own bytes: nobody can tell when these begin and end in
the same fragments. -/
def EndsAlike (held : Tagged) : Prop :=
  let lead := (bytes held.text).length - (bytes (trimStart held.text)).length
  let size := (bytes (trim held.text)).length
  trim held.text ≠ [] →
    (byteTags held)[0]? = (byteTags held)[lead]? ∧
      (byteTags held)[size - 1]? = (byteTags held)[lead + size - 1]?

/-- A trimmed text starts with a character that is not white. -/
theorem trim_starts {s : Str} (h : trim s ≠ []) :
    ∃ c r, trim s = c :: r ∧ isWhitespace c = false := by
  obtain ⟨tail, htail, -⟩ := exists_trimEnd (trimStart s)
  cases ht : trim s with
  | nil => exact absurd ht h
  | cons c r =>
      refine ⟨c, r, rfl, ?_⟩
      rw [show trimEnd (trimStart s) = c :: r from ht] at htail
      have hhead := List.head?_dropWhile_not isWhitespace s
      rw [show s.dropWhile isWhitespace = c :: r ++ tail from htail, List.cons_append,
        List.head?_cons] at hhead
      simpa using hhead

/-- White space before a text that does not start with any. -/
theorem white_unique {p q p' q' : Str} (h : p ++ q = p' ++ q') (hp : visible p = [])
    (hp' : visible p' = []) {c c' : Char} {r r' : Str} (hq : q = c :: r) (hq' : q' = c' :: r')
    (hc : isWhitespace c = false) (hc' : isWhitespace c' = false) : p = p' := by
  have htake : ∀ {p q : Str} {c : Char} {r : Str}, visible p = [] → q = c :: r →
      isWhitespace c = false → (p ++ q).takeWhile isWhitespace = p := by
    intro p q c r hp hq hc
    rw [visible_eq_nil] at hp
    rw [hq, List.takeWhile_append_of_pos hp, List.takeWhile_cons_of_neg (by simp [hc]),
      List.append_nil]
  rw [← htake hp hq hc, h, htake hp' hq' hc']

/-- The rest of a buffer: white space, what a seal makes of it, white space. -/
theorem exists_trim (held : Tagged) :
    ∃ white content after : Tagged, held = white ++ (content ++ after) ∧
      visible white.text = [] ∧ content.text = trim held.text ∧
      (bytes held.text).length - (bytes (trimStart held.text)).length =
        (byteTags white).length := by
  have hsplit : held.text = held.text.takeWhile isWhitespace ++ trimStart held.text :=
    (List.takeWhile_append_dropWhile ..).symm
  obtain ⟨tail, htail, -⟩ := exists_trimEnd (trimStart held.text)
  obtain ⟨white, solid, hheld, hwt, hst⟩ := text_eq_append hsplit
  obtain ⟨content, after, rfl, hct, -⟩ := text_eq_append (hst.trans htail)
  refine ⟨white, content, after, hheld, ?_, hct, ?_⟩
  · rw [hwt, visible_eq_nil]
    intro c hc
    exact List.mem_takeWhile_imp hc
  · rw [length_byteTags, hwt, congrArg bytes hsplit, bytes_append, List.length_append]
    omega

/-- A sentence that is a whole trimmed text is attributed to the fragments of
the window of its bytes. -/
theorem attributed_trim_iff {sources : Nat → Source} {held : Tagged} (h : trim held.text ≠ [])
    (sourceMeta : SentenceSourceMeta) :
    let lead := (bytes held.text).length - (bytes (trimStart held.text)).length
    let size := (bytes (trim held.text)).length
    Attributed sources held [(trim held.text, sourceMeta)] ↔
      Attributes sourceMeta ((((byteTags held).drop lead).take size).map sources) := by
  intro lead size
  obtain ⟨white, content, after, hheld, hwhite, hct, hlead⟩ := exists_trim held
  obtain ⟨c, r, hstart, hc⟩ := trim_starts h
  have hwindow : ((byteTags held).drop lead).take size = byteTags content := by
    show ((byteTags held).drop ((bytes held.text).length -
      (bytes (trimStart held.text)).length)).take (bytes (trim held.text)).length = _
    rw [hlead, ← hct, ← length_byteTags, hheld, byteTags_append, List.drop_left, byteTags_append,
      List.take_left]
  rw [hwindow]
  constructor
  · intro hattributed
    generalize hsaid : [(trim held.text, sourceMeta)] = said at hattributed
    generalize hwhole : held = whole at hattributed
    cases hattributed with
    | nil => cases hsaid
    | @cons white' content' after' _ _ hwhite' hmeta _ =>
        obtain ⟨hhead, -⟩ := List.cons.inj hsaid
        obtain ⟨hct', rfl⟩ := Prod.mk.inj hhead
        -- the piece stands where the trimmed text does
        have hsame : white ++ (content ++ after) = white' ++ (content' ++ after') :=
          hheld.symm.trans hwhole
        have htext := congrArg Tagged.text hsame
        rw [text_append, text_append, text_append, text_append] at htext
        have hlead' : white.text = white'.text :=
          white_unique htext hwhite hwhite' (by rw [hct, hstart]; rfl)
            (by rw [← hct', hstart]; rfl) hc hc
        have hlen : white.length = white'.length := by
          have hlength := congrArg List.length hlead'
          simpa [Tagged.text] using hlength
        obtain ⟨-, hrest⟩ := List.append_inj hsame hlen
        have hlen' : content.length = content'.length := by
          have hlength := congrArg List.length (hct.trans hct')
          simpa [Tagged.text] using hlength
        obtain ⟨rfl, -⟩ := List.append_inj hrest hlen'
        exact hmeta.congr (fun s => (mem_sources_iff sources content s).symm)
  · intro hmeta
    have hone : Attributed sources (white ++ (content ++ after)) [(content.text, sourceMeta)] :=
      .cons hwhite (hmeta.congr (mem_sources_iff sources content)) .nil
    rw [hct] at hone
    rw [← hheld] at hone
    exact hone

/-- What the code makes of a sealed rest. -/
def sealedMeta (sources : Nat → Source) (held : Tagged) : SentenceSourceMeta :=
  ((((byteTags held).take (bytes (trim held.text)).length).map sources).foldl
    Window.observe {}).toMeta

theorem present_times (tags : List Nat) :
    present ((tags.map fun k => (⟨some k, none⟩ : Source)).map Source.time) = {n | n ∈ tags} := by
  ext n
  simp [present]

theorem length_trim_le (s : Str) :
    (bytes s).length - (bytes (trimStart s)).length + (bytes (trim s)).length ≤ (bytes s).length := by
  obtain ⟨tail, htail, -⟩ := exists_trimEnd (trimStart s)
  have hsplit : s = s.takeWhile isWhitespace ++ trimStart s :=
    (List.takeWhile_append_dropWhile ..).symm
  have hsolid := congrArg (fun t => (bytes t).length) htail
  have hwhole := congrArg (fun t => (bytes t).length) hsplit
  simp only [bytes_append, List.length_append] at hsolid hwhole
  have htrim : trim s = trimEnd (trimStart s) := rfl
  rw [htrim]
  omega

/-- **A seal attributes its sentence rightly**, whatever the sources say, exactly
when the two windows begin and end alike. -/
theorem sealedMeta_iff {held : Tagged} (hsorted : (byteTags held).Pairwise (· ≤ ·))
    (h : trim held.text ≠ []) :
    (∀ sources, Attributed sources held [(trim held.text, sealedMeta sources held)]) ↔
      EndsAlike held := by
  have hlen : (bytes held.text).length - (bytes (trimStart held.text)).length +
      (bytes (trim held.text)).length ≤ (byteTags held).length :=
    (length_trim_le held.text).trans (Nat.le_of_eq (length_byteTags held).symm)
  have hpos : 0 < (bytes (trim held.text)).length := by
    rw [List.length_pos_iff]
    exact fun hnil => h (bytes_eq_nil.mp hnil)
  constructor
  · intro hright
    -- let every fragment tell its number
    let numbers : Nat → Source := fun k => ⟨some k, none⟩
    have htrue := (attributed_trim_iff h _).mp (hright numbers)
    have hcode : Attributes (sealedMeta numbers held) _ := attributes_observed _
    obtain ⟨hfirst, hlast, -⟩ := htrue
    obtain ⟨hfirst', hlast', -⟩ := hcode
    rw [present_times] at hfirst hlast hfirst' hlast'
    rw [show (byteTags held).take (bytes (trim held.text)).length =
      ((byteTags held).drop 0).take (bytes (trim held.text)).length by rw [List.drop_zero]]
      at hfirst' hlast'
    have hne : {n | n ∈ ((byteTags held).drop 0).take (bytes (trim held.text)).length} ≠ ∅ := by
      rw [← Set.nonempty_iff_ne_empty]
      obtain ⟨y, hy⟩ : ∃ y, (byteTags held)[0]? = some y :=
        ⟨_, List.getElem?_eq_getElem (by omega)⟩
      exact ⟨y, mem_window.mpr ⟨0, Nat.le_refl _, by omega, hy⟩⟩
    intro _
    refine ⟨?_, ?_⟩
    · cases hm : (sealedMeta numbers held).time.map SourceTimeObservation.firstMs with
      | none =>
          rw [hm] at hfirst'
          exact absurd hfirst' hne
      | some x =>
          rw [hm] at hfirst hfirst'
          rw [isLeast_window hsorted (by omega) hpos hfirst',
            isLeast_window hsorted (by omega) hpos hfirst]
    · cases hm : (sealedMeta numbers held).time.map SourceTimeObservation.lastMs with
      | none =>
          rw [hm] at hlast'
          exact absurd hlast' hne
      | some x =>
          rw [hm] at hlast hlast'
          have hwin := isGreatest_window hsorted (by omega) hpos hlast'
          rw [Nat.zero_add] at hwin
          rw [hwin, isGreatest_window hsorted (by omega) hpos hlast]
  · intro hends sources
    obtain ⟨hfirst, hlast⟩ := hends h
    apply (attributed_trim_iff h _).mpr
    apply (attributes_observed _).congr
    intro s
    rw [List.mem_map, List.mem_map]
    have hsame := mem_window_of_ends hsorted (by omega) hfirst hlast
    rw [List.drop_zero] at hsame
    simp only [hsame]

/-! ## Runs -/

/-- The segmenter after an operation, which looks at no source. -/
def ChannelOp.segment (s : SentenceSegmenter) : ChannelOp → SentenceSegmenter
  | .push text => (s.pushed text).2
  | .sealed => s.sealed.2
  | .takeUnresolved => s.takeUnresolved.2

/-- Every seal finds a rest whose two windows begin and end alike. -/
def Aligned : Nat → Tagged → List ChannelOp → Prop
  | _, _, [] => True
  | i, held, op :: ops =>
      let now := held ++ op.tagged i
      (op = .sealed → EndsAlike held) ∧
        Aligned (i + 1) (now.drop (now.length - (op.segment ⟨held.text⟩).buf.length)) ops

instance (held : Tagged) : Decidable (EndsAlike held) := inferInstanceAs (Decidable (_ → _))

instance decidableAligned : ∀ i held ops, Decidable (Aligned i held ops)
  | _, _, [] => .isTrue trivial
  | i, held, op :: ops =>
      let now := held ++ op.tagged i
      let _ := decidableAligned (i + 1)
        (now.drop (now.length - (op.segment ⟨held.text⟩).buf.length)) ops
      inferInstanceAs (Decidable (_ ∧ _))

theorem segmenter_apply (c : ChannelAssembly) (source : Source) (op : ChannelOp) :
    (c.apply source op).2.segmenter = op.segment c.segmenter := by
  cases op with
  | push text => rfl
  | sealed => rfl
  | takeUnresolved => rfl

/-- The channel holds this text, and its spans tell so byte by byte. -/
structure Tracks (sources : Nat → Source) (c : ChannelAssembly) (held : Tagged) : Prop where
  text : c.segmenter = ⟨held.text⟩
  spans : expand c.spans = (byteTags held).map sources

theorem Tracks.held {sources : Nat → Source} {c : ChannelAssembly} {held : Tagged}
    (h : Tracks sources c held) : c.Held := by
  unfold ChannelAssembly.Held SentenceSegmenter.bufferedBytes
  rw [← length_expand, h.spans, List.length_map, length_byteTags, h.text]

/-- What is left is the end of what was there. -/
theorem Tracks.left {sources : Nat → Source} {c : ChannelAssembly} {left : Tagged}
    (h : Tracks sources c left) (taken : Tagged) :
    (taken ++ left).drop ((taken ++ left).length - c.segmenter.buf.length) = left := by
  have hlen : c.segmenter.buf.length = left.length := by
    rw [h.text]
    exact List.length_map _
  rw [hlen, List.length_append, Nat.add_sub_cancel, List.drop_left]

/-- Fragments in order, and none that is still to come. -/
structure InOrder (i : Nat) (held : Tagged) : Prop where
  sorted : (byteTags held).Pairwise (· ≤ ·)
  past : ∀ k ∈ byteTags held, k < i

theorem InOrder.push {i : Nat} {held : Tagged} (h : InOrder i held) (op : ChannelOp) :
    InOrder (i + 1) (held ++ op.tagged i) := by
  have hnew : ∀ k ∈ byteTags (op.tagged i), k = i := by
    intro k hk
    obtain ⟨x, hx, rfl⟩ := mem_byteTags.mp hk
    cases op with
    | push text =>
        obtain ⟨c, -, rfl⟩ := List.mem_map.mp hx
        rfl
    | sealed => cases hx
    | takeUnresolved => cases hx
  refine ⟨?_, ?_⟩
  · rw [byteTags_append, List.pairwise_append]
    refine ⟨h.sorted, ?_, ?_⟩
    · apply List.Pairwise.imp_of_mem (R := fun _ _ => True)
      · intro a b ha hb _
        rw [hnew a ha, hnew b hb]
      · exact List.pairwise_of_forall (fun _ _ => trivial)
    · intro a ha b hb
      rw [hnew b hb]
      exact Nat.le_of_lt (h.past a ha)
  · intro k hk
    rw [byteTags_append, List.mem_append] at hk
    rcases hk with hk | hk
    · exact Nat.lt_succ_of_lt (h.past k hk)
    · rw [hnew k hk]
      exact Nat.lt_succ_self i

theorem InOrder.right {i : Nat} {taken left : Tagged} (h : InOrder i (taken ++ left)) :
    InOrder i left := by
  obtain ⟨hsorted, hpast⟩ := h
  rw [byteTags_append] at hsorted hpast
  refine ⟨(List.pairwise_append.mp hsorted).2.1, ?_⟩
  intro k hk
  exact hpast k (List.mem_append_right _ hk)

section Steps

variable {sources : Nat → Source} {i : Nat} {c : ChannelAssembly} {held : Tagged}

theorem pushed_eq {s : SentenceSegmenter} {text rest : Str} {completed : List CompletedSentence}
    (h : Drains (s.buf ++ text) completed rest) : s.pushed text = (completed, ⟨rest⟩) := by
  unfold SentenceSegmenter.pushed
  simp only [show s.push text = _ from h.push, Option.get_some]

theorem sealed_eq {s : SentenceSegmenter} {rest : Str} {completed : List CompletedSentence}
    (h : Drains s.buf completed rest) :
    s.sealed = (completed ++ lastSentence rest, ⟨afterSeal rest⟩) := by
  unfold SentenceSegmenter.sealed
  simp only [show s.sealAtCleanEnd = _ from h.seal, Option.get_some]

/-- A push is attributed rightly. -/
theorem apply_push (h : Tracks sources c held) (text : Str) :
    ∃ taken left : Tagged, held ++ (ChannelOp.push text).tagged i = taken ++ left ∧
      Tracks sources (c.push text (sources i)).2 left ∧ findSentenceEnd left.text = some none ∧
      Attributed sources (held ++ (ChannelOp.push text).tagged i)
        (c.push text (sources i)).1 := by
  obtain ⟨completed, rest, hd⟩ := exists_drains (held.text ++ text)
  have hnow : (held ++ (ChannelOp.push text).tagged i : Tagged).text = held.text ++ text := by
    rw [text_append]
    simp [ChannelOp.tagged, Tagged.text, Function.comp_def]
  have hspans : expand (if text ≠ [] then c.spans ++ [⟨(bytes text).length, sources i⟩] else c.spans) =
      (byteTags (held ++ (ChannelOp.push text).tagged i)).map sources := by
    have hnew : (byteTags ((ChannelOp.push text).tagged i)).map sources =
        List.replicate (bytes text).length (sources i) := by
      apply List.eq_replicate_iff.mpr
      refine ⟨?_, ?_⟩
      · rw [List.length_map, length_byteTags]
        simp [ChannelOp.tagged, Tagged.text, Function.comp_def]
      · intro b hb
        obtain ⟨k, hk, rfl⟩ := List.mem_map.mp hb
        obtain ⟨x, hx, rfl⟩ := mem_byteTags.mp hk
        obtain ⟨ch, -, rfl⟩ := List.mem_map.mp hx
        rfl
    rw [byteTags_append, List.map_append, hnew, ← h.spans]
    by_cases htext : text = []
    · subst htext
      simp
    · rw [if_pos htext, expand_append, expand_cons]
      simp [expand]
  obtain ⟨taken, left, hsplit, hleft, hattributed, hexpand⟩ := drains_attributed hd hnow hspans
  have hsegment : c.segmenter.pushed text = (completed, ⟨rest⟩) :=
    pushed_eq (by rw [h.text]; exact hd)
  have hpush : c.push text (sources i) =
      ((attributeAll completed (if text ≠ [] then c.spans ++ [⟨(bytes text).length, sources i⟩]
        else c.spans)).1,
       { segmenter := ⟨rest⟩
         spans := (attributeAll completed (if text ≠ [] then
          c.spans ++ [⟨(bytes text).length, sources i⟩] else c.spans)).2 }) := by
    unfold ChannelAssembly.push
    rw [hsegment]
  rw [hpush]
  refine ⟨taken, left, hsplit, ⟨?_, hexpand⟩, ?_, hattributed⟩
  · rw [hleft]
  · rw [hleft]
    exact hd.left

/-- A seal of a drained buffer makes one sentence of it, or none. -/
theorem apply_sealed (h : Tracks sources c held) (hdrained : findSentenceEnd held.text = some none) :
    ∃ taken left : Tagged, held = taken ++ left ∧ Tracks sources c.sealed.2 left ∧
      findSentenceEnd left.text = some none ∧
      c.sealed.1 =
        if trim held.text ≠ [] then [(trim held.text, sealedMeta sources held)] else [] := by
  have hsegment : c.segmenter.sealed = (lastSentence held.text, ⟨afterSeal held.text⟩) :=
    @sealed_eq c.segmenter held.text [] (by rw [h.text]; exact .done hdrained)
  have hseal : c.sealed = ((attributeAll (lastSentence held.text) c.spans).1,
      { segmenter := ⟨afterSeal held.text⟩
        spans := (attributeAll (lastSentence held.text) c.spans).2 }) := by
    unfold ChannelAssembly.sealed
    rw [hsegment]
  rw [hseal]
  unfold lastSentence afterSeal
  by_cases htrim : trim held.text = []
  · simp only [htrim, ne_eq, not_true, if_false]
    exact ⟨[], held, rfl, ⟨rfl, h.spans⟩, hdrained, rfl⟩
  · simp only [if_pos htrim]
    have hshort : (bytes (trim held.text)).length ≤ (bytes held.text).length := by
      have hle := length_trim_le held.text
      omega
    obtain ⟨hmeta, hleft⟩ := @takeSpans_eq c.spans _ _ hshort
      (by rw [h.spans, List.length_map, length_byteTags])
    refine ⟨held, [], (List.append_nil held).symm, ⟨rfl, ?_⟩, rfl, ?_⟩
    · refine hleft.trans ?_
      rw [List.drop_of_length_le (by rw [h.spans, List.length_map, length_byteTags])]
      rfl
    · show [(trim held.text, (takeSpans c.spans _ _).1)] = _
      rw [hmeta, h.spans, ← List.map_take]
      rfl

end Steps

/-- **One operation**: the channel tracks what is left, and the sentences are
attributed rightly, whatever the sources say, unless it is a seal whose windows
differ. -/
theorem apply_tracks {i : Nat} {held : Tagged} {cs : (Nat → Source) → ChannelAssembly}
    (h : ∀ sources, Tracks sources (cs sources) held) (horder : InOrder i held)
    (hdrained : findSentenceEnd held.text = some none) (op : ChannelOp) :
    ∃ taken left : Tagged, held ++ op.tagged i = taken ++ left ∧
      (∀ sources, Tracks sources ((cs sources).apply (sources i) op).2 left) ∧
      findSentenceEnd left.text = some none ∧
      ((∀ sources, Attributed sources (held ++ op.tagged i) ((cs sources).apply (sources i) op).1) ↔
        (op = .sealed → EndsAlike held)) := by
  -- what is left is the same for all sources
  have hsame : ∀ {sources sources' : Nat → Source} {taken taken' left left' : Tagged},
      held ++ op.tagged i = taken ++ left → held ++ op.tagged i = taken' ++ left' →
      Tracks sources ((cs sources).apply (sources i) op).2 left →
      Tracks sources' ((cs sources').apply (sources' i) op).2 left' → left = left' := by
    intro sources sources' taken taken' left left' hsplit hsplit' htracks htracks'
    have hseg : ((cs sources).apply (sources i) op).2.segmenter =
        ((cs sources').apply (sources' i) op).2.segmenter := by
      rw [segmenter_apply, segmenter_apply, (h sources).text, (h sources').text]
    rw [← htracks.left taken, ← htracks'.left taken', ← hsplit, ← hsplit', hseg]
  cases op with
  | push text =>
      obtain ⟨taken, left, hsplit, htracks, hleft, -⟩ :=
        @apply_push (fun _ => ⟨none, none⟩) i _ held (h _) text
      refine ⟨taken, left, hsplit, ?_, hleft, ?_⟩
      · intro sources
        obtain ⟨taken', left', hsplit', htracks', -, -⟩ := @apply_push sources i _ held (h sources) text
        rw [hsame hsplit hsplit' htracks htracks']
        exact htracks'
      · constructor
        · intro _ hop
          cases hop
        · intro _ sources
          obtain ⟨-, -, -, -, -, hattributed⟩ := @apply_push sources i _ held (h sources) text
          exact hattributed
  | sealed =>
      have hnow : held ++ ChannelOp.sealed.tagged i = held := List.append_nil held
      obtain ⟨taken, left, hsplit, htracks, hleft, -⟩ :=
        apply_sealed (h fun _ => ⟨none, none⟩) hdrained
      refine ⟨taken, left, hnow.trans hsplit, ?_, hleft, ?_⟩
      · intro sources
        obtain ⟨taken', left', hsplit', htracks', -, -⟩ := apply_sealed (h sources) hdrained
        rw [hsame (hnow.trans hsplit) (hnow.trans hsplit') htracks htracks']
        exact htracks'
      · have hsaid : ∀ sources, ((cs sources).apply (sources i) .sealed).1 =
            if trim held.text ≠ [] then [(trim held.text, sealedMeta sources held)] else [] := by
          intro sources
          obtain ⟨-, -, -, -, -, hsaid⟩ := apply_sealed (h sources) hdrained
          exact hsaid
        simp only [hsaid, hnow, forall_true_left]
        by_cases htrim : trim held.text = []
        · simp only [htrim, ne_eq, not_true, if_false]
          exact ⟨fun _ hne => absurd htrim hne, fun _ _ => .nil⟩
        · simp only [if_pos htrim]
          exact sealedMeta_iff horder.sorted htrim
  | takeUnresolved =>
      refine ⟨held, [], rfl, ?_, rfl, ?_⟩
      · intro sources
        exact ⟨rfl, rfl⟩
      · constructor
        · intro _ hop
          cases hop
        · intro _ _
          exact .nil

theorem right_iff_aligned {i : Nat} {held : Tagged} {cs : (Nat → Source) → ChannelAssembly}
    (h : ∀ sources, Tracks sources (cs sources) held) (horder : InOrder i held)
    (hdrained : findSentenceEnd held.text = some none) (ops : List ChannelOp) :
    (∀ sources, RightThroughout sources i (cs sources) held ops) ↔ Aligned i held ops := by
  induction ops generalizing i held cs with
  | nil => exact ⟨fun _ => trivial, fun _ sources => (h sources).held⟩
  | cons op ops ih =>
      obtain ⟨taken, left, hsplit, htracks, hleft, hattributed⟩ := apply_tracks h horder hdrained op
      have horder' : InOrder (i + 1) left := by
        have hpush := horder.push op
        rw [hsplit] at hpush
        exact hpush.right
      have hnext : ∀ sources, (held ++ op.tagged i).drop ((held ++ op.tagged i).length -
          ((cs sources).apply (sources i) op).2.segmenter.buf.length) = left := by
        intro sources
        rw [hsplit]
        exact (htracks sources).left taken
      have hsegment : (held ++ op.tagged i).drop ((held ++ op.tagged i).length -
          (op.segment ⟨held.text⟩).buf.length) = left := by
        have hone := hnext (fun _ => ⟨none, none⟩)
        rw [segmenter_apply, (h _).text] at hone
        exact hone
      have hrest := @ih (i + 1) left (fun sources => ((cs sources).apply (sources i) op).2) htracks horder'
        hleft
      show (∀ sources, (cs sources).Held ∧
          Attributed sources (held ++ op.tagged i) ((cs sources).apply (sources i) op).1 ∧
          RightThroughout sources (i + 1) ((cs sources).apply (sources i) op).2
            ((held ++ op.tagged i).drop ((held ++ op.tagged i).length -
              ((cs sources).apply (sources i) op).2.segmenter.buf.length)) ops) ↔
        (op = .sealed → EndsAlike held) ∧ Aligned (i + 1) ((held ++ op.tagged i).drop
          ((held ++ op.tagged i).length - (op.segment ⟨held.text⟩).buf.length)) ops
      rw [hsegment, ← hattributed, ← hrest]
      simp only [hnext]
      constructor
      · intro hright
        exact ⟨fun sources => (hright sources).2.1, fun sources => (hright sources).2.2⟩
      · rintro ⟨hsaid, hright⟩ sources
        exact ⟨(h sources).held, hsaid sources, hright sources⟩

/-- **Sentences are attributed to the fragments of their characters** in every
run of a channel exactly when every seal finds its windows aligned; the spans
sum to the buffer in any case. -/
theorem attributed_iff_aligned (ops : List ChannelOp) :
    (∀ sources, RightThroughout sources 0 {} [] ops) ↔ Aligned 0 [] ops :=
  right_iff_aligned (fun _ => ⟨rfl, rfl⟩) ⟨List.Pairwise.nil, by simp [byteTags]⟩ rfl ops

/-- A new line and a word as two fragments: the sealed word is attributed to the
new line. -/
theorem word_attributed_to_newline :
    ¬ ∀ (ops : List ChannelOp) (sources : Nat → Source),
      RightThroughout sources 0 {} [] ops := by
  intro h
  have haligned := (right_iff_aligned (fun _ => ⟨rfl, rfl⟩) ⟨List.Pairwise.nil, by simp [byteTags]⟩
    rfl [.push ['\n'], .push ['H', 'i'], .sealed]).mp (h _)
  exact absurd haligned (by decide +kernel)

end Monoloop.Interpreter
