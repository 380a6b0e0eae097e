import Monoloop.Interpreter.FirstSentence

/-!
# The segmenter's drain

What a drain does to a buffer is a derivation (`Drains`): one step for each
sentence given out, and a last one when the scan finds no more. Every buffer has
one, and the loop follows it with fuel to spare; from there on the drain is
reasoned about by induction on the derivation.

The conservation law is stated over whole runs: whatever is pushed, in whatever
fragments, comes out as contents or stays in the buffer, character by character
except for white space, and byte by byte.
-/

namespace Monoloop.Interpreter

open Utf8

/-- A text of ASCII white space. -/
def White (w : Str) : Prop := ∀ b ∈ bytes w, isAsciiWhitespace b = true

/-- The text does not start with ASCII white space. -/
def StartsSolid (q : Str) : Prop := (bytes q).head?.any isAsciiWhitespace = false

theorem White.visible {w : Str} (h : White w) : visible w = [] := visible_eq_nil_of_ascii h

theorem white_nil : White [] := by simp [White]

theorem startsSolid_nil : StartsSolid [] := rfl

theorem White.append {w w' : Str} (h : White w) (h' : White w') : White (w ++ w') := by
  intro b hb
  rw [bytes_append, List.mem_append] at hb
  exact hb.elim (h b) (h' b)

theorem White.of_append {w w' : Str} (h : White (w ++ w')) : White w ∧ White w' :=
  ⟨fun b hb => h b (by simp [hb]), fun b hb => h b (by simp [hb])⟩

/-- Every text is white space followed by a text that starts solid. -/
theorem exists_white (r : Str) : ∃ w q, r = w ++ q ∧ White w ∧ StartsSolid q := by
  have hsplit := (List.takeWhile_append_dropWhile (p := isAsciiWhitespace) (l := bytes r)).symm
  have hwhite : ∀ b ∈ (bytes r).takeWhile isAsciiWhitespace, isAsciiWhitespace b = true :=
    fun b hb => List.mem_takeWhile_imp hb
  obtain ⟨q, hq, hbytes⟩ :=
    split_of_ascii_run hsplit (fun b hb => ascii_of_isAsciiWhitespace (hwhite b hb))
  have hw : bytes (((bytes r).takeWhile isAsciiWhitespace).map charOf) =
      (bytes r).takeWhile isAsciiWhitespace := by
    have h := congrArg bytes hq
    rw [bytes_append, hbytes] at h
    exact (List.append_cancel_right (hsplit.symm.trans h)).symm
  refine ⟨_, q, hq, ?_, ?_⟩
  · rw [White, hw]
    exact hwhite
  · rw [StartsSolid, hbytes]
    have hstop := List.head?_dropWhile_not isAsciiWhitespace (bytes r)
    cases hd : ((bytes r).dropWhile isAsciiWhitespace).head? with
    | none => rfl
    | some b =>
        rw [hd] at hstop
        exact hstop

/-- The white space the drain skips is what stands before the solid part. -/
theorem takeWhile_white {w q : Str} (hw : White w) (hq : StartsSolid q) :
    (bytes (w ++ q)).takeWhile isAsciiWhitespace = bytes w := by
  rw [bytes_append, List.takeWhile_append_of_pos hw]
  cases hb : bytes q with
  | nil => simp
  | cons b rest =>
      rw [StartsSolid, hb] at hq
      rw [List.takeWhile_cons_of_neg (by simpa using hq), List.append_nil]

/-! ## Derivations -/

/-- The sentence given out for the part `a` of the buffer and the white space
`w` after it. -/
def completed (a w : Str) : CompletedSentence :=
  { content := trimEnd a
    contentBytes := (bytes (trimEnd a)).length
    bytesConsumed := (bytes a).length + (bytes w).length }

/-- The drain of a buffer: the sentences it gives out and what it leaves. -/
inductive Drains : Str → List CompletedSentence → Str → Prop where
  | done {s} : findSentenceEnd s = some none → Drains s [] s
  | turn {a w q out rest} : FirstSentence a (a ++ (w ++ q)) → visible a ≠ [] → White w →
      StartsSolid q → Drains q out rest → Drains (a ++ (w ++ q)) (completed a w :: out) rest

/-- One turn of the drain's loop, at a first sentence. -/
theorem drainTurn_eq {a w q : Str} (ha : visible a ≠ []) (hw : White w) (hq : StartsSolid q) :
    drainTurn (a ++ (w ++ q)) (bytes a).length = some (some (completed a w), q) := by
  have hcontent : trimEnd a ≠ [] := fun h => ha (trimEnd_eq_nil.mp h)
  have hcut : splitAt (a ++ (w ++ q)) ((bytes a).length + (bytes w).length) =
      some (a ++ w, q) := by
    rw [← List.append_assoc, ← List.length_append, ← bytes_append]
    exact splitAt_append _ _
  rw [drainTurn, splitAt_append, bytes_append, List.drop_left, takeWhile_white hw hq]
  simp only [Option.bind_eq_bind, Option.bind_some, hcut, if_pos hcontent]
  rfl

/-- **The loop follows the derivation**, and a byte of fuel for each byte of the
buffer, and one more, is enough. -/
theorem Drains.loop {s rest : Str} {out : List CompletedSentence} (h : Drains s out rest)
    {fuel : Nat} (hfuel : (bytes s).length < fuel) : drainLoop fuel s = some (out, rest) := by
  induction h generalizing fuel with
  | done hnone =>
      obtain ⟨fuel, rfl⟩ := Nat.exists_eq_succ_of_ne_zero (show fuel ≠ 0 by omega)
      simp only [drainLoop, hnone, Option.bind_eq_bind, Option.bind_some]
  | @turn a w q out rest hfirst ha hw hq _ ih =>
      obtain ⟨fuel, rfl⟩ := Nat.exists_eq_succ_of_ne_zero (show fuel ≠ 0 by omega)
      -- the sentence takes at least one byte
      have hpos : 0 < (bytes a).length := by
        rw [List.length_pos_iff]
        rintro hnil
        rw [bytes_eq_nil] at hnil
        exact ha (by rw [hnil]; rfl)
      rw [bytes_append, bytes_append, List.length_append, List.length_append] at hfuel
      have hrest : drainLoop fuel q = some (out, rest) := ih (by omega)
      rw [FirstSentence] at hfirst
      simp only [drainLoop, hfirst, drainTurn_eq ha hw hq, hrest, Option.bind_eq_bind,
        Option.bind_some]
      rfl

theorem exists_drains (s : Str) : ∃ out rest, Drains s out rest := by
  induction hn : s.length using Nat.strongRecOn generalizing s with
  | ind n ih =>
      rcases firstSentence_cases s with hnone | ⟨a, r, rfl, hfirst, ha, -⟩
      · exact ⟨[], s, .done hnone⟩
      · obtain ⟨w, q, rfl, hw, hq⟩ := exists_white r
        have hpos : 0 < a.length := by
          rw [List.length_pos_iff]
          rintro rfl
          exact ha rfl
        simp only [List.length_append] at hn
        obtain ⟨out, rest, hd⟩ := ih q.length (by omega) q rfl
        exact ⟨_, rest, .turn hfirst ha hw hq hd⟩

theorem Drains.unique {s rest rest' : Str} {out out' : List CompletedSentence}
    (h : Drains s out rest) (h' : Drains s out' rest') : out = out' ∧ rest = rest' := by
  have heq := (h.loop (Nat.lt_succ_self _)).symm.trans (h'.loop (Nat.lt_succ_self _))
  exact Prod.mk.inj (Option.some.inj heq)

/-- What is left holds no complete sentence. -/
theorem Drains.left {s rest : Str} {out : List CompletedSentence} (h : Drains s out rest) :
    findSentenceEnd rest = some none := by
  induction h with
  | done hnone => exact hnone
  | turn _ _ _ _ _ ih => exact ih

theorem Drains.push {buf text rest : Str} {out : List CompletedSentence}
    (h : Drains (buf ++ text) out rest) :
    SentenceSegmenter.push { buf } text = some (out, { buf := rest }) := by
  simp only [SentenceSegmenter.push, drainComplete, h.loop (Nat.lt_succ_self _),
    Option.bind_eq_bind, Option.bind_some, Bool.false_eq_true, false_and, if_false,
    Option.map_some]

/-- The last sentence, made of what is left at a clean end. -/
def lastSentence (rest : Str) : List CompletedSentence :=
  if trim rest ≠ [] then
    [{ content := trim rest, contentBytes := (bytes (trim rest)).length,
       bytesConsumed := (bytes rest).length }]
  else []

/-- What the seal leaves of it: white space is not worth a sentence. -/
def afterSeal (rest : Str) : Str := if trim rest ≠ [] then [] else rest

theorem Drains.seal {buf rest : Str} {out : List CompletedSentence} (h : Drains buf out rest) :
    SentenceSegmenter.sealAtCleanEnd { buf } =
      some (out ++ lastSentence rest, { buf := afterSeal rest }) := by
  simp only [SentenceSegmenter.sealAtCleanEnd, drainComplete, h.loop (Nat.lt_succ_self _),
    Option.bind_eq_bind, Option.bind_some, true_and, lastSentence, afterSeal]
  split <;> simp

/-! ## Conservation -/

def totalConsumed : List CompletedSentence → Nat
  | [] => 0
  | c :: rest => c.bytesConsumed + totalConsumed rest

theorem totalConsumed_append (out out' : List CompletedSentence) :
    totalConsumed (out ++ out') = totalConsumed out + totalConsumed out' := by
  induction out with
  | nil => simp [totalConsumed]
  | cons c out ih =>
      simp only [List.cons_append, totalConsumed, ih]
      omega

/-- Nothing of the input is lost or doubled between what was given out and what
is still buffered. -/
structure Conserved (input : Str) (out : List CompletedSentence) (rest : Str) : Prop where
  characters : visible (out.flatMap CompletedSentence.content) ++ visible rest = visible input
  nonempty : ∀ c ∈ out, c.content ≠ []
  accounted : totalConsumed out + (bytes rest).length = (bytes input).length

theorem Conserved.start (s : Str) : Conserved s [] s where
  characters := rfl
  nonempty := by simp
  accounted := by simp [totalConsumed]

/-- One step: what is buffered may give out more and take more in. -/
theorem Conserved.step {input text buf rest : Str} {out out' : List CompletedSentence}
    (h : Conserved input out buf) (h' : Conserved (buf ++ text) out' rest) :
    Conserved (input ++ text) (out ++ out') rest where
  characters := by
    rw [List.flatMap_append, visible_append, List.append_assoc, h'.characters, visible_append,
      ← List.append_assoc, h.characters, visible_append]
  nonempty := by
    intro c hc
    exact (List.mem_append.mp hc).elim (h.nonempty c) (h'.nonempty c)
  accounted := by
    have h1 := h.accounted
    have h2 := h'.accounted
    rw [bytes_append, List.length_append] at h2
    rw [totalConsumed_append, bytes_append, List.length_append]
    omega

/-- A drain conserves its buffer: the sentence and the white space that are cut
off, then what the rest of the drain does. -/
theorem Drains.conserved {s rest : Str} {out : List CompletedSentence} (h : Drains s out rest) :
    Conserved s out rest := by
  induction h with
  | done hnone => exact .start _
  | @turn a w q out rest _ ha hw _ _ ih =>
      have hcontent : trimEnd a ≠ [] := fun h => ha (trimEnd_eq_nil.mp h)
      constructor
      · rw [List.flatMap_cons, visible_append, List.append_assoc, ih.characters, completed,
          visible_trimEnd, visible_append, visible_append, hw.visible, List.nil_append]
      · intro c hc
        rcases List.mem_cons.mp hc with rfl | hc
        · exact hcontent
        · exact ih.nonempty c hc
      · have hacc := ih.accounted
        simp only [totalConsumed, completed, bytes_append, List.length_append]
        omega

theorem conserved_seal (rest : Str) : Conserved rest (lastSentence rest) (afterSeal rest) := by
  unfold lastSentence afterSeal
  split
  · rename_i hne
    constructor
    · simp
    · simpa using hne
    · simp [totalConsumed]
  · exact .start rest

/-- **The run lemma**: pushes never fail and conserve what they are given. -/
theorem pushAll_conserves (fragments : List Str) (buf : Str) :
    ∃ out rest, SentenceSegmenter.pushAll { buf } fragments = some (out, { buf := rest }) ∧
      Conserved (buf ++ fragments.flatten) out rest := by
  induction fragments generalizing buf with
  | nil => exact ⟨[], buf, rfl, by simpa using Conserved.start buf⟩
  | cons text fragments ih =>
      obtain ⟨out, rest, hd⟩ := exists_drains (buf ++ text)
      obtain ⟨out', rest', hrun, hcons⟩ := ih rest
      refine ⟨out ++ out', rest', ?_, ?_⟩
      · simp only [SentenceSegmenter.pushAll, hd.push, hrun, Option.bind_eq_bind,
          Option.bind_some]
      · rw [List.flatten_cons, ← List.append_assoc]
        exact hd.conserved.step hcons

/-- **The segmenter loses and doubles nothing.** Whatever the fragments, sealed
or not, no slice fails and every drain ends; the visible characters come out in
order, no sentence is empty, and the bytes add up. -/
theorem segment_conserves (fragments : List Str) (sealed : Bool) :
    ∃ out s, SentenceSegmenter.segment fragments sealed = some (out, s) ∧
      Conserved fragments.flatten out s.buf := by
  obtain ⟨out, rest, hrun, hcons⟩ := pushAll_conserves fragments []
  rw [List.nil_append] at hcons
  replace hrun : SentenceSegmenter.new.pushAll fragments = some (out, { buf := rest }) := hrun
  cases sealed with
  | false =>
      refine ⟨out, { buf := rest }, ?_, hcons⟩
      simp only [SentenceSegmenter.segment, hrun, Option.bind_eq_bind, Option.bind_some,
        Bool.false_eq_true, if_false]
  | true =>
      obtain ⟨out', rest', hd⟩ := exists_drains rest
      refine ⟨out ++ (out' ++ lastSentence rest'), { buf := afterSeal rest' }, ?_, ?_⟩
      · simp only [SentenceSegmenter.segment, hrun, hd.seal, Option.bind_eq_bind,
          Option.bind_some, if_true]
      · have hsealed : Conserved (rest ++ []) (out' ++ lastSentence rest') (afterSeal rest') :=
          hd.conserved.step (by simpa using conserved_seal rest')
        rw [List.append_nil] at hsealed
        have hall : Conserved (fragments.flatten ++ []) (out ++ (out' ++ lastSentence rest'))
            (afterSeal rest') := hcons.step (by simpa using hsealed)
        rwa [List.append_nil] at hall

end Monoloop.Interpreter
