import Monoloop.Lib.Pieces
import Monoloop.Lib.Triple
import Monoloop.Interpreter.Emission
import Monoloop.Interpreter.Attribution
import Monoloop.Interpreter.IterationOrder

/-!
# What is heard and what is said

Text deltas come in by channel (`heardOn`), sentences go out by channel (`toldOn`).
Through every method of the assembly the sentences told on a channel are contiguous
pieces of the text heard on it, in order, with white space between them, and the
channel's buffer is the rest (`Spoken`). A method that fails leaves some rest
(`Said`). A run that ends complete has sealed every channel, and nothing but white
space is left untold (`text_preserved`).
-/

namespace Monoloop.Interpreter

open InPlace Utf8

/-! ## Heard, told, buffered -/

/-- The text an operation brings to a channel. -/
def EngineOp.heardOn (channel : TextChannel) : EngineOp → Str
  | .fragment (.textDelta c text) => if c = channel then text.toList else []
  | _ => []

/-- The text some operations bring to a channel. -/
def heardOn (channel : TextChannel) (ops : List EngineOp) : Str :=
  ops.flatMap (EngineOp.heardOn channel)

/-- The content of a sentence on a channel. -/
def sentenceOn (channel : TextChannel) : InterpreterOutputEvent → Option Str
  | .unit event =>
      match event.snapshot.unit with
      | .text _ c _ content => if c = channel then some content.toList else none
      | _ => none
  | .ended _ => none

/-- The sentences told on a channel. -/
def toldOn (channel : TextChannel) (published : List InterpreterOutputEvent) : List Str :=
  published.filterMap (sentenceOn channel)

/-- The text of a channel that is not told yet. -/
def bufferOn (channel : TextChannel) (a : Assembly) : Str :=
  ((a.channels.lookup channel).map SentenceSegmenter.buf).getD []

theorem heardOn_append (channel : TextChannel) (ops ops' : List EngineOp) :
    heardOn channel (ops ++ ops') = heardOn channel ops ++ heardOn channel ops' :=
  List.flatMap_append

theorem toldOn_append (channel : TextChannel) (p q : List InterpreterOutputEvent) :
    toldOn channel (p ++ q) = toldOn channel p ++ toldOn channel q := List.filterMap_append

/-- Events that are no sentences tell nothing. -/
theorem toldOn_silent {channel : TextChannel} {p : List InterpreterOutputEvent}
    (h : sentencesOf p = []) : toldOn channel p = [] := by
  rw [toldOn, List.filterMap_eq_nil_iff]
  intro e he
  have hno : isSentence e = false := by
    by_contra hyes
    exact List.filter_eq_nil_iff.mp h e he (by simpa using hyes)
  cases e with
  | unit event =>
      unfold isSentence CanonicalUnit.isText at hno
      unfold sentenceOn
      simp only at hno ⊢
      split
      · rename_i hunit
        rw [hunit] at hno
        cases hno
      · rfl
  | ended report => rfl

theorem toldOn_quiet {channel : TextChannel} {p q : List InterpreterOutputEvent}
    (h : sentencesOf q = []) : toldOn channel (p ++ q) = toldOn channel p := by
  rw [toldOn_append, toldOn_silent h, List.append_nil]

/-- A blank text is all white space. -/
theorem white_of_visible {s : Str} (h : visible s = []) : ∀ c ∈ s, isWhitespace c = true :=
  visible_eq_nil.mp h

/-! ## The segmenter gives out pieces -/

abbrev Sentences : Str → List Str → Str → Prop := Pieces isWhitespace

/-- **A drain cuts its buffer**: each sentence, the white space after it, and the rest. -/
theorem Drains.sentences {s rest : Str} {out : List CompletedSentence} (h : Drains s out rest) :
    Sentences s (out.map CompletedSentence.content) rest := by
  induction h with
  | done _ => exact .start _
  | @turn a w q out rest _ _ hw _ _ ih =>
      obtain ⟨tail, ha, htail⟩ := exists_trimEnd a
      have hgap : ∀ c ∈ tail ++ w, isWhitespace c = true := by
        intro c hc
        exact (List.mem_append.mp hc).elim (white_of_visible htail c)
          (white_of_visible hw.visible c)
      have hcons : Sentences ([] ++ (trimEnd a ++ (tail ++ w ++ q)))
          (trimEnd a :: out.map CompletedSentence.content) rest :=
        .cons (trimEnd a) (by simp) (ih.lead hgap)
      rw [List.nil_append, List.append_assoc, ← List.append_assoc, ← ha] at hcons
      exact hcons

/-- The last sentence is the rest without its white space. -/
theorem lastSentence_sentences (rest : Str) :
    Sentences rest ((lastSentence rest).map CompletedSentence.content) (afterSeal rest) := by
  unfold lastSentence afterSeal
  split
  · obtain ⟨lead, hlead, hvisible⟩ : ∃ lead, rest = lead ++ trimStart rest ∧ visible lead = [] :=
      ⟨rest.takeWhile isWhitespace, (List.takeWhile_append_dropWhile ..).symm,
        visible_eq_nil.mpr (fun c hc => List.mem_takeWhile_imp hc)⟩
    obtain ⟨tail, htail, hblank⟩ := exists_trimEnd (trimStart rest)
    have hcons : Sentences (lead ++ (trim rest ++ (tail ++ []))) [trim rest] [] :=
      .cons (trim rest) (white_of_visible hvisible) (.nil [] (white_of_visible hblank))
    rw [List.append_nil, trim, ← htail, ← hlead] at hcons
    exact hcons
  · exact .start rest

/-- What a seal leaves is white space. -/
theorem visible_afterSeal (rest : Str) : visible (afterSeal rest) = [] := by
  unfold afterSeal
  split
  · rfl
  · rename_i hblank
    exact trim_eq_nil.mp (not_not.mp hblank)

theorem pushed_sentences (s : SentenceSegmenter) (text : Str) :
    Sentences (s.buf ++ text) ((s.pushed text).1.map CompletedSentence.content)
      (s.pushed text).2.buf := by
  obtain ⟨out, rest, hd⟩ := exists_drains (s.buf ++ text)
  rw [pushed_eq hd]
  exact hd.sentences

theorem sealed_sentences (s : SentenceSegmenter) :
    Sentences s.buf (s.sealed.1.map CompletedSentence.content) s.sealed.2.buf ∧
      visible s.sealed.2.buf = [] := by
  obtain ⟨out, rest, hd⟩ := exists_drains s.buf
  rw [sealed_eq hd, List.map_append]
  exact ⟨hd.sentences.trans (lastSentence_sentences rest), visible_afterSeal rest⟩

/-! ## The methods of the assembly -/

/-- What was heard on each channel. -/
abbrev Hearing := TextChannel → Str

/-- **On every channel** the sentences told are pieces of the text heard, and the
buffer is the rest. -/
def Spoken (heard : Hearing) (a : Assembly) : Prop :=
  ∀ channel, Sentences (heard channel) (toldOn channel a.published) (bufferOn channel a)

/-- The sentences told are pieces of the text heard. -/
def Said (heard : Hearing) (a : Assembly) : Prop :=
  ∀ channel, ∃ rest, Sentences (heard channel) (toldOn channel a.published) rest

theorem Spoken.said {heard : Hearing} {a : Assembly} (h : Spoken heard a) : Said heard a :=
  fun channel => ⟨_, h channel⟩

/-- Told the same, and buffered the same. -/
structure SpeaksAlike (a b : Assembly) : Prop where
  told : ∀ channel, toldOn channel b.published = toldOn channel a.published
  buffered : ∀ channel, bufferOn channel b = bufferOn channel a

theorem Spoken.alike {heard : Hearing} {a b : Assembly} (h : Spoken heard a)
    (halike : SpeaksAlike a b) : Spoken heard b := by
  intro channel
  rw [halike.told, halike.buffered]
  exact h channel

theorem Said.congr {heard : Hearing} {a b : Assembly} (h : Said heard a)
    (htold : ∀ channel, toldOn channel b.published = toldOn channel a.published) :
    Said heard b := by
  intro channel
  rw [htold]
  exact h channel

/-- More is heard, and nothing told of it. -/
theorem Said.extend {heard : Hearing} {a : Assembly} (h : Said heard a) (more : Hearing) :
    Said (fun channel => heard channel ++ more channel) a := by
  intro channel
  obtain ⟨rest, hrest⟩ := h channel
  exact ⟨_, hrest.extend (more channel)⟩

/-- Sentences of a channel that are cut off but not told yet. -/
def Owes (heard : Hearing) (channel : TextChannel) (contents : List Str) (a : Assembly) : Prop :=
  ∀ c, Sentences (heard c) (toldOn c a.published ++ if c = channel then contents else [])
    (bufferOn c a)

theorem Owes.said {heard : Hearing} {channel : TextChannel} {contents : List Str} {a : Assembly}
    (h : Owes heard channel contents a) : Said heard a := by
  intro c
  obtain ⟨middle, hfirst, -⟩ := (h c).split
  exact ⟨middle, hfirst⟩

theorem Owes.spoken {heard : Hearing} {channel : TextChannel} {a : Assembly}
    (h : Owes heard channel [] a) : Spoken heard a := by
  intro c
  have hc := h c
  rwa [ite_self, List.append_nil] at hc

/-- A segmenter's step on a channel: its sentences are owed, its rest is stored. -/
theorem Spoken.owes {heard : Hearing} {a b : Assembly} (h : Spoken heard a) {channel : TextChannel}
    {s : SentenceSegmenter} {text : Str} {contents : List Str}
    (hstep : Sentences (bufferOn channel a ++ text) contents s.buf)
    (hchannels : b.channels = a.channels.put channel s) (hpublished : b.published = a.published) :
    Owes (fun c => heard c ++ if c = channel then text else []) channel contents b := by
  intro c
  have hlookup : b.channels.lookup c = if c = channel then some s else a.channels.lookup c := by
    rw [hchannels, HashMap.lookup_put]
  rw [hpublished]
  by_cases hc : c = channel
  · subst hc
    have hbuffer : bufferOn c b = s.buf := by
      rw [bufferOn, hlookup, if_pos rfl]
      rfl
    simp only [if_true, hbuffer]
    exact (h c).append hstep
  · have hbuffer : bufferOn c b = bufferOn c a := by
      rw [bufferOn, hlookup, if_neg hc]
      rfl
    simp only [if_neg hc, hbuffer, List.append_nil]
    exact h c

section Methods

variable {room : Option Nat}

theorem sentenceOn_saySentence (a : Assembly) (channel c : TextChannel) (content : Str) :
    toldOn c (a.saySentence channel content).published =
      toldOn c a.published ++ if c = channel then [content] else [] := by
  rw [Assembly.saySentence, toldOn_append]
  congr 1
  by_cases hc : c = channel
  · subst hc
    simp [toldOn, sentenceOn, CanonicalUnitEvent.snapshot]
  · simp [toldOn, sentenceOn, CanonicalUnitEvent.snapshot, hc, Ne.symm hc]

/-- **One owed sentence** is told, or nobody receives. -/
theorem triple_emitSentence (heard : Hearing) (channel : TextChannel) (content : Str)
    (contents : List Str) :
    Triple (Owes heard channel (content :: contents)) (emitSentence room channel content)
      (fun _ => Owes heard channel contents) (Said heard) := by
  intro a ha
  rcases @emitSentence_cases room channel content a with ⟨-, b, hcall, hpublished, -, -⟩ | ⟨-, hcall⟩
  · rw [hcall]
    exact ha.said.congr (fun c => by rw [hpublished])
  · rw [hcall]
    intro c
    rw [sentenceOn_saySentence, show bufferOn c (a.saySentence channel content) = bufferOn c a from rfl,
      List.append_assoc]
    have hc := ha c
    by_cases hchannel : c = channel
    · rw [if_pos hchannel] at hc ⊢
      rw [if_pos hchannel]
      exact hc
    · rw [if_neg hchannel] at hc ⊢
      rw [if_neg hchannel]
      exact hc

theorem triple_emitSentences (heard : Hearing) (channel : TextChannel) (contents : List Str) :
    Triple (Owes heard channel contents) (forEach (emitSentence room channel) contents)
      (fun _ => Spoken heard) (Said heard) := by
  refine Triple.consequence (P := fun a => ∃ todo, contents = [] ++ todo ∧ Owes heard channel todo a)
    (Q := fun _ a => ∃ todo, contents = contents ++ todo ∧ Owes heard channel todo a)
    (Triple.forEach (I := fun done a => ∃ todo, contents = done ++ todo ∧ Owes heard channel todo a) ?_)
    (fun a ha => ⟨contents, rfl, ha⟩) ?_ (fun _ h => h)
  · rintro done content todo hcontents a ⟨todo', htodo, howes⟩
    obtain rfl : content :: todo = todo' := List.append_cancel_left (hcontents.symm.trans htodo)
    refine Triple.consequence (@triple_emitSentence room heard channel content todo)
      (fun _ h => h) (fun _ b hb => ?_) (fun _ h => h) a howes
    exact ⟨todo, by rw [hcontents, List.append_assoc, List.singleton_append], hb⟩
  · rintro _ a ⟨todo, htodo, howes⟩
    obtain rfl : todo = [] := by simpa using htodo
    exact howes.spoken

/-- **Text on a channel**: heard, cut into sentences, and told. -/
theorem triple_onText (limits : InterpretationLimits) (heard : Hearing) (channel : TextChannel)
    (text : String) :
    Triple (Spoken heard) (onText room limits channel text)
      (fun _ => Spoken fun c => heard c ++ if c = channel then text.toList else [])
      (Said fun c => heard c ++ if c = channel then text.toList else []) := by
  refine triple_get (fun a ha => ?_)
  have hbuffer : ((a.channels.lookup channel).getD .new).buf = bufferOn channel a := by
    unfold bufferOn
    cases a.channels.lookup channel with
    | none => rfl
    | some s => rfl
  simp only
  split
  · -- the buffer would grow too long: nothing more is told
    refine Triple.bind (Q := fun _ => Said heard) (triple_modify ?_) (fun _ => triple_throw ?_)
    · rintro _ rfl
      exact ha.said.congr (fun _ => rfl)
    · exact fun _ h => h.extend _
  · refine Triple.bind (triple_modify (Q := fun _ => Owes _ channel _) ?_)
      (fun _ => triple_emitSentences _ channel _)
    rintro _ rfl
    refine ha.owes ?_ rfl rfl
    rw [← hbuffer]
    exact pushed_sentences _ _

/-- Nothing but white space is buffered on a channel. -/
def Blank (channel : TextChannel) (a : Assembly) : Prop := visible (bufferOn channel a) = []

theorem blank_of_channels {a b : Assembly} {c : TextChannel} (h : Blank c a)
    (hchannels : b.channels = a.channels) : Blank c b := by
  unfold Blank bufferOn at h ⊢
  rw [hchannels]
  exact h

theorem blank_emitSentences (channel c : TextChannel) (contents : List Str) :
    Triple (Blank c) (forEach (emitSentence room channel) contents) (fun _ => Blank c)
      (fun _ => True) := by
  intro a ha
  have hchannels := @channels_emitSentences room channel contents a
  have hafter := blank_of_channels ha hchannels
  rcases hcall : call (forEach (emitSentence room channel) contents) a with ⟨_ | _, b⟩
  · trivial
  · rw [hcall] at hafter
    exact hafter

/-- A seal tells what its channel still holds. -/
theorem triple_sealChannel (heard : Hearing) (channel : TextChannel) :
    Triple (Spoken heard) (sealChannel room channel) (fun _ => Spoken heard) (Said heard) := by
  refine triple_get (fun a ha => ?_)
  cases hl : a.channels.lookup channel with
  | none =>
      refine triple_pure ?_
      rintro _ rfl
      exact ha
  | some s =>
      refine Triple.bind (triple_modify (Q := fun _ =>
        Owes heard channel (s.sealed.1.map CompletedSentence.content)) ?_)
        (fun _ => triple_emitSentences heard channel _)
      rintro _ rfl
      have hbuffer : bufferOn channel a = s.buf := by
        unfold bufferOn
        rw [hl]
        rfl
      have hsealed : Sentences (bufferOn channel a ++ [])
          (s.sealed.1.map CompletedSentence.content) s.sealed.2.buf := by
        rw [List.append_nil, hbuffer]
        exact (sealed_sentences s).1
      have howes := ha.owes hsealed
        (b := { a with channels := a.channels.put channel s.sealed.2 }) rfl rfl
      simpa only [ite_self, List.append_nil] using howes

/-- It leaves white space on its channel, and the other channels as they were. -/
theorem blank_sealChannel (channel c : TextChannel) :
    Triple (fun a => c = channel ∨ Blank c a) (sealChannel room channel) (fun _ => Blank c)
      (fun _ => True) := by
  refine triple_get (fun a ha => ?_)
  cases hl : a.channels.lookup channel with
  | none =>
      refine triple_pure ?_
      rintro _ rfl
      rcases ha with rfl | hblank
      · unfold Blank bufferOn
        rw [hl]
        rfl
      · exact hblank
  | some s =>
      refine Triple.bind (triple_modify (Q := fun _ => Blank c) ?_)
        (fun _ => blank_emitSentences channel c _)
      rintro _ rfl
      unfold Blank bufferOn at ha ⊢
      rw [HashMap.lookup_put]
      by_cases hc : c = channel
      · rw [if_pos hc]
        exact (sealed_sentences s).2
      · rw [if_neg hc]
        exact ha.resolve_left hc

/-- **Sealing the channels** tells all but white space. -/
theorem triple_sealTextChannels (channelOrder : HashMap.IterOrder TextChannel) (heard : Hearing) :
    Triple (Spoken heard) (sealTextChannels room channelOrder)
      (fun _ a => Spoken heard a ∧ ∀ c, Blank c a) (Said heard) := by
  refine triple_get (fun a ha => ?_)
  refine Triple.consequence (E := fun b => Said heard b ∧ ∀ _ : TextChannel, True)
    (P := fun b => Spoken heard b ∧ ∀ c, c ∉ channelOrder.keys a.channels ∨ c ∈ [] → Blank c b)
    (Q := fun _ b => Spoken heard b ∧
      ∀ c, c ∉ channelOrder.keys a.channels ∨ c ∈ channelOrder.keys a.channels → Blank c b)
    (Triple.forEach (I := fun done b => Spoken heard b ∧
      ∀ c, c ∉ channelOrder.keys a.channels ∨ c ∈ done → Blank c b) ?_) ?_ ?_ (fun _ h => h.1)
  · intro done channel todo _ b hb
    obtain ⟨hspoken, hblank⟩ := hb
    rcases hcall : call (sealChannel room channel) b with ⟨_ | _, b'⟩
    · exact ⟨(triple_sealChannel heard channel).error hspoken hcall, fun _ => trivial⟩
    · refine ⟨(triple_sealChannel heard channel).ok hspoken hcall, fun c hc => ?_⟩
      refine (blank_sealChannel channel c).ok (s := b) ?_ hcall
      rcases hc with hc | hc
      · exact .inr (hblank c (.inl hc))
      · rcases List.mem_append.mp hc with hc | hc
        · exact .inr (hblank c (.inr hc))
        · exact .inl (List.mem_singleton.mp hc)
  · rintro _ rfl
    refine ⟨ha, fun c hc => ?_⟩
    have hfresh : c ∉ channelOrder.keys a.channels := hc.resolve_right (List.not_mem_nil)
    rw [HashMap.IterOrder.mem_keys] at hfresh
    unfold Blank bufferOn
    cases hl : a.channels.lookup c with
    | none => rfl
    | some s => exact absurd ⟨s, hl⟩ hfresh
  · rintro _ b ⟨hspoken, hblank⟩
    exact ⟨hspoken, fun c => hblank c (Classical.em _).symm⟩

/-! ## The operations -/

/-- A method that says nothing of its own. -/
theorem triple_of_alike {method : Assembling} (h : ∀ a, SpeaksAlike a (call method a).2)
    (heard : Hearing) :
    Triple (Spoken heard) method (fun _ => Spoken heard) (Said heard) := by
  intro a ha
  have hafter := ha.alike (h a)
  rcases hcall : call method a with ⟨_ | _, b⟩
  · rw [hcall] at hafter
    exact hafter.said
  · rw [hcall] at hafter
    exact hafter

theorem speaksAlike_notice (notice : Notice) (a : Assembly) :
    SpeaksAlike a
      (call (emitUnit room notice.idPrefix .response (fun _ => notice.unit)) a).2 := by
  rcases @emitNotice_cases room notice a with ⟨-, hcall⟩ | ⟨-, hcall⟩
  · rw [hcall]
    exact ⟨fun _ => rfl, fun _ => rfl⟩
  · rw [hcall]
    refine ⟨fun c => toldOn_quiet ?_, fun _ => rfl⟩
    cases notice <;> rfl

theorem speaksAlike_onTool (limits : InterpretationLimits) (id : ToolActionId)
    (signal : ToolSignal) (a : Assembly) : SpeaksAlike a (call (onTool room limits id signal) a).2 := by
  rcases onTool_cases room limits a id signal with
    ⟨-, e, hcall⟩ | ⟨-, e, hcall⟩ | ⟨-, e, hcall⟩ | ⟨-, hcall⟩
  · rw [hcall]
    exact ⟨fun _ => rfl, fun _ => rfl⟩
  · rw [hcall]
    exact ⟨fun _ => rfl, fun _ => rfl⟩
  · rw [hcall]
    exact ⟨fun _ => rfl, fun _ => rfl⟩
  · rw [hcall]
    refine ⟨fun c => toldOn_quiet ?_, fun _ => rfl⟩
    cases signal with
    | waiting name waitingFor => cases (a.tools.lookup id).isNone <;> rfl
    | requestReady name arguments => cases (a.tools.lookup id).isNone <;> rfl
    | resolved success result => rfl

/-- What an operation adds to what was heard. -/
def hear (heard : Hearing) (ops : List EngineOp) : Hearing :=
  fun channel => heard channel ++ heardOn channel ops

theorem hear_nil (heard : Hearing) : hear heard [] = heard := by
  funext channel
  exact List.append_nil _

theorem hear_append (heard : Hearing) (ops ops' : List EngineOp) :
    hear heard (ops ++ ops') = hear (hear heard ops) ops' := by
  funext channel
  simp only [hear, heardOn_append, List.append_assoc]

theorem hear_silent {op : EngineOp} (h : ∀ channel, op.heardOn channel = []) (heard : Hearing) :
    hear heard [op] = heard := by
  funext channel
  simp [hear, heardOn, h channel]

/-- **One operation.** -/
theorem triple_applyOp (orders : Iteration) (request : StartInterpretation) (op : EngineOp)
    (heard : Hearing) :
    Triple (Spoken heard) (Owner.applyOp orders room request op)
      (fun _ => Spoken (hear heard [op])) (Said (hear heard [op])) := by
  cases op with
  | startResponse =>
      rw [hear_silent (fun _ => rfl)]
      refine triple_get (fun a ha => ?_)
      split
      · refine triple_pure ?_
        rintro _ rfl
        exact ha
      · refine Triple.bind (triple_modify (Q := fun _ => Spoken heard) ?_)
          (fun _ => triple_of_alike (speaksAlike_notice (.boundary .responseStarted)) heard)
        rintro _ rfl
        exact ha.alike ⟨fun _ => rfl, fun _ => rfl⟩
  | fragment frag =>
      cases frag with
      | textDelta channel text =>
          have hhear : hear heard [.fragment (.textDelta channel text)] =
              fun c => heard c ++ if c = channel then text.toList else [] := by
            funext c
            simp only [hear, heardOn, EngineOp.heardOn, List.flatMap_cons, List.flatMap_nil,
              List.append_nil, eq_comm]
          rw [hhear]
          exact triple_onText request.limits heard channel text
      | tool id signal =>
          rw [hear_silent (fun _ => rfl)]
          exact triple_of_alike (speaksAlike_onTool request.limits id signal) heard
      | responseFinished =>
          rw [hear_silent (fun _ => rfl)]
          refine Triple.bind ((triple_sealTextChannels orders.channels heard).consequence
            (fun _ h => h) (fun _ _ h => h.1) (fun _ h => h)) (fun _ => ?_)
          exact triple_of_alike (speaksAlike_notice (.boundary .responseFinished)) heard
      | diagnostic message =>
          rw [hear_silent (fun _ => rfl)]
          refine Triple.bind (triple_modify (Q := fun _ => Spoken heard) ?_)
            (fun _ => triple_of_alike
              (speaksAlike_notice (.diagnostic .unsupportedEvent message)) heard)
          intro a ha
          exact ha.alike ⟨fun _ => rfl, fun _ => rfl⟩

/-- **Operations one after the other.** -/
theorem triple_applyOps (orders : Iteration) (request : StartInterpretation) (ops : List EngineOp)
    (heard : Hearing) :
    Triple (Spoken heard) (forEach (Owner.applyOp orders room request) ops)
      (fun _ => Spoken (hear heard ops)) (Said (hear heard ops)) := by
  refine Triple.consequence (P := fun a => Spoken (hear heard []) a)
    (Triple.forEach (I := fun done => Spoken (hear heard done)) ?_)
    (fun a ha => by rwa [hear_nil]) (fun _ _ h => h) (fun _ h => h)
  intro done op todo hops
  refine (triple_applyOp orders request op (hear heard done)).consequence (fun _ h => h)
    (fun _ a h => ?_) (fun a h => ?_)
  · rwa [hear_append]
  · -- the operations after the one that failed are heard by nobody
    have hmore := h.extend (fun channel => heardOn channel todo)
    have hall : (fun channel => hear (hear heard done) [op] channel ++ heardOn channel todo) =
        hear heard ops := by
      rw [hops, List.append_cons, hear_append, hear_append]
      rfl
    rwa [hall] at hmore

end Methods

/-! ## Runs -/

section Runs

variable {serde : SerdeJson} {orders : Iteration} {room : Option Nat}
  {request : StartInterpretation}

/-- The clean end brings no text. -/
theorem heardOn_sealOps {d d' : Decoder} {ops : List EngineOp}
    (hseal : d.sealOps serde orders.calls request.family = (.ok ops, d'))
    (channel : TextChannel) : heardOn channel ops = [] := by
  rw [heardOn, List.flatMap_eq_nil_iff]
  intro op hop
  obtain ⟨id, name, waitingFor, rfl⟩ := sealOps_waiting serde orders hseal op hop
  rfl

theorem hear_sealOps {d d' : Decoder} {ops : List EngineOp}
    (hseal : d.sealOps serde orders.calls request.family = (.ok ops, d')) (heard : Hearing) :
    hear heard ops = heard := by
  funext channel
  rw [hear, heardOn_sealOps hseal, List.append_nil]

/-- The report tells nothing on a channel. -/
theorem toldOn_finish (o : Owner) (kind : InterpretationEndKind) (channel : TextChannel) :
    toldOn channel (o.finish room kind).assembly.published =
      toldOn channel o.assembly.published := by
  obtain ⟨-, out, hout, hended⟩ := @assembly_finish room o kind
  rw [hout]
  exact toldOn_quiet (sentencesOf_ended hended)

theorem toldOn_quarantineAndFinish (o : Owner) (kind : InterpretationEndKind)
    (channel : TextChannel) :
    toldOn channel (o.quarantineAndFinish orders room kind).assembly.published =
      toldOn channel o.assembly.published := by
  rw [Owner.quarantineAndFinish, toldOn_finish]
  obtain ⟨hpublished, -⟩ := call_quarantine orders room o.decoder.frameBuf.length o.assembly
  rw [show (Owner.quarantinePartials orders room o).2.assembly.published = _ from hpublished]
  exact toldOn_quiet (sentencesOf_accepted orders room o.assembly)

/-- The clean end tells all but white space. -/
theorem triple_sealAll {d d' : Decoder} {ops : List EngineOp}
    (hseal : d.sealOps serde orders.calls request.family = (.ok ops, d')) (heard : Hearing) :
    Triple (Spoken heard) (Owner.sealAll orders room request ops)
      (fun _ a => Spoken heard a ∧ ∀ channel, Blank channel a) (Said heard) := by
  have hops := @triple_applyOps room orders request ops heard
  rw [hear_sealOps hseal] at hops
  exact hops.bind (fun _ => triple_sealTextChannels orders.channels heard)

/-- What was heard of the chunks of a run. -/
def heardIn (serde : SerdeJson) (orders : Iteration) (request : StartInterpretation)
    (cmds : List InputCmd) : Hearing :=
  fun channel =>
    heardOn channel (decodeAll serde orders request (Owner.new request).decoder (chunksOf cmds)).1

/-- The chunks, as far as they went in. -/
theorem spoken_ingestAll {cmds : List InputCmd} {result : Except InterpreterError Unit} {o : Owner}
    (hin : (Owner.new request).ingestAll serde orders room request (chunksOf cmds) = (result, o)) :
    Said (heardIn serde orders request cmds) o.assembly ∧
      (result = .ok () → Spoken (heardIn serde orders request cmds) o.assembly) := by
  obtain ⟨hassembly, -, -, hresult, -⟩ :=
    (Owner.new request).ingestAll_eq serde orders room request (chunksOf cmds)
  rw [hin] at hassembly hresult
  replace hassembly : o.assembly = (call (forEach (Owner.applyOp orders room request) (decodeAll serde
    orders request (Owner.new request).decoder (chunksOf cmds)).1) {}).2 := hassembly
  replace hresult : result = ((call (forEach (Owner.applyOp orders room request) (decodeAll serde
    orders request (Owner.new request).decoder (chunksOf cmds)).1) {}).1 >>= fun _ =>
      (decodeAll serde orders request (Owner.new request).decoder (chunksOf cmds)).2.map
        fun _ => ()) := hresult
  have hempty : Spoken (fun _ => []) ({} : Assembly) := fun _ => .start []
  have htriple := @triple_applyOps room orders request
    (decodeAll serde orders request (Owner.new request).decoder (chunksOf cmds)).1 (fun _ => [])
  rcases hcall : call (forEach (Owner.applyOp orders room request) (decodeAll serde orders request
    (Owner.new request).decoder (chunksOf cmds)).1) {} with ⟨e | _, a⟩
  · rw [hcall] at hassembly hresult
    rw [hassembly]
    refine ⟨htriple.error hempty hcall, fun hok => ?_⟩
    rw [hresult] at hok
    cases hok
  · rw [hcall] at hassembly
    have hspoken : Spoken (heardIn serde orders request cmds) o.assembly := by
      rw [hassembly]
      exact htriple.ok hempty hcall
    exact ⟨hspoken.said, fun _ => hspoken⟩

/-- Whatever ends the run, what was told are pieces of what was heard. -/
theorem said_run (cmds : List InputCmd) :
    Said (heardIn serde orders request cmds)
      ((Owner.new request).run serde orders room request cmds).assembly := by
  have hends := (Owner.new request).run_ends serde orders room request cmds
  generalize (Owner.new request).run serde orders room request cmds = final at hends
  cases hends with
  | refused hin => exact (spoken_ingestAll hin).1.congr (toldOn_finish _ _)
  | aborted hin _ => exact (spoken_ingestAll hin).1.congr (toldOn_quarantineAndFinish _ _)
  | @unsealable o d _ hin _ _ =>
      exact (spoken_ingestAll hin).1.congr (toldOn_quarantineAndFinish { o with decoder := d } _)
  | @unsealed o d ops a _ hin _ hseal hall =>
      have hsaid := (triple_sealAll hseal _).error ((spoken_ingestAll hin).2 rfl) hall
      exact hsaid.congr (toldOn_quarantineAndFinish { o with decoder := d, assembly := a } _)
  | @complete o d ops a hin _ hseal hall =>
      have hsealed := (triple_sealAll hseal _).ok ((spoken_ingestAll hin).2 rfl) hall
      exact hsealed.1.said.congr (toldOn_finish { o with decoder := d, assembly := a } _)

/-- A complete run has told all but white space. -/
theorem told_complete {cmds : List InputCmd}
    (hcomplete : ((Owner.new request).run serde orders room request cmds).completion.map
      InterpretationEnd.kind = some .complete) (channel : TextChannel) :
    Sentences (heardIn serde orders request cmds channel)
      (toldOn channel ((Owner.new request).run serde orders room request cmds).assembly.published)
      [] := by
  obtain ⟨o, d, ops, a, hin, -, hseal, hall, hfinal⟩ :=
    Owner.run_complete serde orders room request hcomplete
  obtain ⟨hspoken, hblank⟩ := (triple_sealAll hseal _).ok ((spoken_ingestAll hin).2 rfl) hall
  rw [hfinal, toldOn_finish]
  exact (hspoken channel).finish (white_of_visible (hblank channel))

end Runs

/-- **The text of a run is preserved**: in every dialect, however the input is cut into
chunks and however it ends, the sentences told on a channel are pieces of the text the
decoder heard on it, in order, with white space between them. A run that ends complete
leaves nothing but white space untold. -/
theorem text_preserved (serde : SerdeJson) (orders : Iteration) (room : Option Nat)
    (request : StartInterpretation) (cmds : List InputCmd) (channel : TextChannel) :
    let final := (Owner.new request).run serde orders room request cmds
    ∃ rest, Sentences (heardIn serde orders request cmds channel)
        (toldOn channel final.assembly.published) rest ∧
      (final.completion.map InterpretationEnd.kind = some .complete → rest = []) := by
  intro final
  by_cases hcomplete : final.completion.map InterpretationEnd.kind = some .complete
  · exact ⟨[], told_complete hcomplete channel, fun _ => rfl⟩
  · obtain ⟨rest, hrest⟩ := @said_run serde orders room request cmds channel
    exact ⟨rest, hrest, fun h => absurd h hcomplete⟩

end Monoloop.Interpreter
