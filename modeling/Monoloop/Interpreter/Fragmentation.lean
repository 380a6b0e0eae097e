import Monoloop.Interpreter.SentenceDrain

/-!
# Fragmentation of a text

The contents that come out of a text, pushed in fragments and sealed, against
the contents of the same text pushed in another way. The sentence ends are the
same; what may differ is white space. The white space after a sentence is
skipped as far as it has arrived, and what arrives later stays in front of the
next sentence, whose end is trimmed and whose front is not.

`Tight` says that this cannot happen in a text: a sentence that a push completes
is preceded by no more white space than what had to arrive to complete the
sentence before it. It is exactly when the contents do not depend on the
fragments.
-/

namespace Monoloop.Interpreter

open Utf8

/-- The contents of a text pushed in the given fragments and sealed. -/
def cleanContents (fragments : List Str) : Option (List Str) :=
  (SentenceSegmenter.segment fragments true).map (fun r => r.1.map CompletedSentence.content)

/-- How much of the white space `w` has to arrive before the sentence `a` is
complete: one character, or both newlines of a blank line. -/
def completionWidth (a w : Str) : Nat :=
  if findSentenceEnd (a ++ w.take 1) = some (some (bytes a).length) then 1 else 2

/-- No sentence completed by a push follows more white space than it takes to
complete the one before it. -/
inductive Tight : Str → Prop where
  | none {s} : findSentenceEnd s = some none → Tight s
  | last {a w q} : FirstSentence a (a ++ (w ++ q)) → White w → StartsSolid q →
      findSentenceEnd q = some none → Tight (a ++ (w ++ q))
  | next {a w q} : FirstSentence a (a ++ (w ++ q)) → White w → StartsSolid q →
      w.length ≤ completionWidth a w → Tight q → Tight (a ++ (w ++ q))

/-! ## Contents as a function of buffer and fragments -/

/-- What a push that leaves `s` in the buffer before draining gives out. -/
def contentsOf (s : Str) : List Str :=
  ((drainComplete s false).getD ([], [])).1.map CompletedSentence.content

def remainderOf (s : Str) : Str := ((drainComplete s false).getD ([], [])).2

/-- The content of the last sentence of a clean end. -/
def sealedContents (rest : Str) : List Str := (lastSentence rest).map CompletedSentence.content

/-- The contents that come out of a buffer and the fragments still to come. -/
def contentsFrom (buf : Str) : List Str → List Str
  | [] => contentsOf buf ++ sealedContents (remainderOf buf)
  | text :: rest => contentsOf (buf ++ text) ++ contentsFrom (remainderOf (buf ++ text)) rest

theorem Drains.contentsOf {s rest : Str} {out : List CompletedSentence} (h : Drains s out rest) :
    contentsOf s = out.map CompletedSentence.content ∧ remainderOf s = rest := by
  have hc : drainComplete s false = some (out, rest) := by
    simp only [drainComplete, h.loop (Nat.lt_succ_self _), Option.bind_eq_bind, Option.bind_some,
      Bool.false_eq_true, false_and, if_false]
  simp only [Interpreter.contentsOf, remainderOf, hc, Option.getD_some, and_self]

theorem pushAll_seal (fragments : List Str) (buf : Str) :
    ∃ out s last s', SentenceSegmenter.pushAll { buf } fragments = some (out, s) ∧
      s.sealAtCleanEnd = some (last, s') ∧
      (out ++ last).map CompletedSentence.content = contentsFrom buf fragments := by
  induction fragments generalizing buf with
  | nil =>
      obtain ⟨out, rest, hd⟩ := exists_drains buf
      obtain ⟨hc, hr⟩ := hd.contentsOf
      refine ⟨[], { buf }, _, _, rfl, hd.seal, ?_⟩
      rw [contentsFrom, hc, hr, List.nil_append, List.map_append, sealedContents]
  | cons text fragments ih =>
      obtain ⟨out, rest, hd⟩ := exists_drains (buf ++ text)
      obtain ⟨hc, hr⟩ := hd.contentsOf
      obtain ⟨out', s, last, s', hrun, hseal, hmap⟩ := ih rest
      refine ⟨out ++ out', s, last, s', ?_, hseal, ?_⟩
      · simp only [SentenceSegmenter.pushAll, hd.push, hrun, Option.bind_eq_bind,
          Option.bind_some]
      · rw [contentsFrom, hc, hr, List.append_assoc, List.map_append, hmap]

theorem cleanContents_eq (fragments : List Str) :
    cleanContents fragments = some (contentsFrom [] fragments) := by
  obtain ⟨out, s, last, s', hrun, hseal, hmap⟩ := pushAll_seal fragments []
  replace hrun : SentenceSegmenter.new.pushAll fragments = some (out, s) := hrun
  simp only [cleanContents, SentenceSegmenter.segment, hrun, hseal, Option.bind_eq_bind,
    Option.bind_some, if_true, Option.map_some, hmap]

/-! ## The three equations -/

/-- Nothing comes out of a buffer without a complete sentence. -/
theorem contentsOf_none {s : Str} (h : findSentenceEnd s = some none) :
    contentsOf s = [] ∧ remainderOf s = s := (Drains.done h).contentsOf

/-- A complete sentence comes out first, and the white space after it is gone. -/
theorem contentsOf_turn {a w q : Str} (h : FirstSentence a (a ++ (w ++ q))) (hw : White w)
    (hq : StartsSolid q) :
    contentsOf (a ++ (w ++ q)) = trimEnd a :: contentsOf q ∧
      remainderOf (a ++ (w ++ q)) = remainderOf q := by
  obtain ⟨_, ha, -⟩ := (h.split (List.prefix_append _ _)).choose_spec
  obtain ⟨out, rest, hd⟩ := exists_drains q
  obtain ⟨hc, hr⟩ := hd.contentsOf
  obtain ⟨hc', hr'⟩ := (Drains.turn h ha hw hq hd).contentsOf
  rw [hc, hr, hc', hr']
  exact ⟨rfl, rfl⟩

/-- Fragments pushed on an empty buffer: an empty one does nothing. -/
theorem contentsFrom_nil_cons (fragments : List Str) :
    contentsFrom [] ([] :: fragments) = contentsFrom [] fragments := by
  obtain ⟨hc, hr⟩ := contentsOf_none (s := []) rfl
  rw [contentsFrom, List.nil_append, hc, hr, List.nil_append]

theorem contentsFrom_single (s : Str) :
    contentsFrom [] [s] = contentsOf s ++ sealedContents (remainderOf s) := by
  obtain ⟨out, rest, hd⟩ := exists_drains s
  obtain ⟨hc, hr⟩ := contentsOf_none hd.left
  rw [contentsFrom, contentsFrom, List.nil_append, hd.contentsOf.2, hc, hr, List.nil_append]

/-! ## Texts without a complete sentence -/

theorem findSentenceEnd_none_of_append {p q : Str} (h : findSentenceEnd (p ++ q) = some none) :
    findSentenceEnd p = some none := by
  rcases firstSentence_cases p with hnone | ⟨a, r, -, hfirst, -, -⟩
  · exact hnone
  · have hq := hfirst.append q
    rw [FirstSentence, h] at hq
    cases Option.some.inj hq

theorem findSentenceEnd_none_shift {w q : Str} (hw : White w)
    (h : findSentenceEnd q = some none) : findSentenceEnd (w ++ q) = some none := by
  rcases firstSentence_cases (w ++ q) with hnone | ⟨b, r, hb, hfirst, hvis, -⟩
  · exact hnone
  · -- the sentence reaches past `w`, so `q` holds one
    rcases List.append_eq_append_iff.mp hb with ⟨m, rfl, -⟩ | ⟨m, rfl, -⟩
    · have hq := (firstSentence_shift hw).mp hfirst
      rw [FirstSentence, h] at hq
      cases Option.some.inj hq
    · exact absurd hw.of_append.1.visible hvis

theorem sealedContents_shift {w : Str} (hw : White w) (q : Str) :
    sealedContents (w ++ q) = sealedContents q := by
  simp only [sealedContents, lastSentence, trim_append_left hw.visible]
  split <;> rfl

/-- Without a complete sentence the fragments do not matter. -/
theorem contentsFrom_none {fragments : List Str} {buf : Str}
    (h : findSentenceEnd (buf ++ fragments.flatten) = some none) :
    contentsFrom buf fragments = sealedContents (buf ++ fragments.flatten) := by
  induction fragments generalizing buf with
  | nil =>
      rw [List.flatten_nil, List.append_nil] at h ⊢
      obtain ⟨hc, hr⟩ := contentsOf_none h
      rw [contentsFrom, hc, hr, List.nil_append]
  | cons text fragments ih =>
      rw [List.flatten_cons, ← List.append_assoc] at h ⊢
      obtain ⟨hc, hr⟩ := contentsOf_none (findSentenceEnd_none_of_append h)
      rw [contentsFrom, hc, hr, List.nil_append]
      exact ih h

/-! ## Tight texts -/

theorem StartsSolid.of_append {m q : Str} (h : StartsSolid (m ++ q)) : StartsSolid m := by
  unfold StartsSolid at h ⊢
  rw [bytes_append] at h
  cases hm : bytes m with
  | nil => rfl
  | cons b rest => rwa [hm] at h

/-- The sentence is not complete before its completion width has arrived. -/
theorem completionWidth_le {a w : Str} (h : FirstSentence a (a ++ w)) (w' : Str) :
    completionWidth a (w ++ w') ≤ w.length := by
  obtain ⟨r, hr, -, hne⟩ := h.split (List.prefix_append _ _)
  obtain rfl := List.append_cancel_left hr
  have hpos := List.length_pos_iff.mpr hne
  unfold completionWidth
  split
  · omega
  · rename_i hnot
    rcases Nat.lt_or_ge 1 w.length with hlt | hle
    · omega
    · -- a single character completed it, contrary to the case
      rw [List.take_append_of_le_length (by omega), List.take_of_length_le hle] at hnot
      exact absurd h hnot

/-- Pushing a text that starts with a sentence: the sentence comes out, and the
rest of the text goes on from an empty buffer, with what is still to come of the
white space in front of it. -/
theorem contentsFrom_turn {a w q : Str} {C : List Str} (hfirst : FirstSentence a (a ++ (w ++ q)))
    (hw : White w) (hq : StartsSolid q)
    (hrest : ∀ fragments : List Str, fragments.flatten = q → contentsFrom [] fragments = C)
    (hlate : ∀ w₁ w₂ : Str, w = w₁ ++ w₂ → w₂ ≠ [] → FirstSentence a (a ++ w₁) →
      ∀ fragments : List Str, fragments.flatten = w₂ ++ q → contentsFrom [] fragments = C)
    (fragments : List Str) (buf : Str) (htext : buf ++ fragments.flatten = a ++ (w ++ q)) :
    contentsFrom buf fragments = trimEnd a :: C := by
  induction fragments generalizing buf with
  | nil =>
      rw [List.flatten_nil, List.append_nil] at htext
      obtain ⟨hc, hr⟩ := contentsOf_turn hfirst hw hq
      rw [contentsFrom, htext, hc, hr, List.cons_append, ← contentsFrom_single,
        hrest [q] (by simp)]
  | cons text fragments ih =>
      rw [List.flatten_cons, ← List.append_assoc] at htext
      rw [contentsFrom]
      rcases firstSentence_cases (buf ++ text) with hnone | ⟨a', r, hsplit, hfirst', -, -⟩
      · obtain ⟨hc, hr⟩ := contentsOf_none hnone
        rw [hc, hr, List.nil_append]
        exact ih _ htext
      · -- the sentence found in the prefix is the one of the whole text
        have hlen : (bytes a').length = (bytes a).length := by
          have hwhole := hfirst'.append fragments.flatten
          rw [htext, FirstSentence, hfirst] at hwhole
          exact (Option.some.inj (Option.some.inj hwhole)).symm
        rw [hsplit] at hfirst' htext ⊢
        rw [List.append_assoc] at htext
        obtain ⟨rfl, hr⟩ := append_inj_bytes htext hlen
        rcases List.append_eq_append_iff.mp hr with ⟨m, rfl, hm⟩ | ⟨m, rfl, hm⟩
        · -- only a part of the white space has arrived
          obtain ⟨hwr, -⟩ := hw.of_append
          obtain ⟨hc, hrem⟩ := contentsOf_turn (q := []) (by simpa using hfirst') hwr rfl
          obtain ⟨hc0, hr0⟩ := contentsOf_none (s := []) rfl
          rw [List.append_nil, hc0] at hc
          rw [List.append_nil, hr0] at hrem
          rw [hc, hrem, List.singleton_append]
          congr 1
          rcases List.eq_nil_or_concat m with rfl | ⟨_, _, hne⟩
          · exact hrest fragments (by simpa using hm)
          · exact hlate r m rfl (by rw [hne]; simp) hfirst' fragments hm
        · -- the white space is there, and the text after it has begun
          subst hm
          obtain ⟨hc, hrem⟩ := contentsOf_turn hfirst' hw hq.of_append
          rw [hc, hrem, List.cons_append]
          congr 1
          have hnext := hrest (m :: fragments) rfl
          rwa [contentsFrom, List.nil_append] at hnext

/-- **In a tight text the fragments do not matter.** -/
theorem Tight.contentsFrom_eq {text : Str} (h : Tight text) {fragments : List Str}
    (htext : fragments.flatten = text) : contentsFrom [] fragments = contentsFrom [] [text] := by
  induction h generalizing fragments with
  | none hnone =>
      rw [contentsFrom_none (by simpa [htext] using hnone),
        contentsFrom_none (by simpa using hnone)]
      simp [htext]
  | @last a w q hfirst hw hq hnone =>
      have hrest : ∀ gs : List Str, ∀ w₂ : Str, White w₂ → gs.flatten = w₂ ++ q →
          contentsFrom [] gs = sealedContents q := by
        intro gs w₂ hw₂ hgs
        have hn := findSentenceEnd_none_shift hw₂ hnone
        rw [contentsFrom_none (by rw [hgs]; simpa using hn), hgs, List.nil_append,
          sealedContents_shift hw₂]
      have hall := contentsFrom_turn hfirst hw hq (fun gs hgs => hrest gs [] white_nil hgs)
        (fun w₁ w₂ hsplit _ _ gs hgs => hrest gs w₂ (hsplit ▸ hw).of_append.2 hgs)
      rw [hall fragments [] (by simpa using htext), hall [a ++ (w ++ q)] [] (by simp)]
  | @next a w q hfirst hw hq hwidth _ ih =>
      have hlate : ∀ w₁ w₂ : Str, w = w₁ ++ w₂ → w₂ ≠ [] → FirstSentence a (a ++ w₁) →
          ∀ gs : List Str, gs.flatten = w₂ ++ q → contentsFrom [] gs = contentsFrom [] [q] := by
        -- the whole of the white space has arrived with the sentence's end
        intro w₁ w₂ hsplit hne hfirst₁
        have hle := completionWidth_le hfirst₁ w₂
        rw [hsplit, List.length_append] at hwidth
        have hpos := List.length_pos_iff.mpr hne
        omega
      have hall := contentsFrom_turn hfirst hw hq (fun gs hgs => ih hgs) hlate
      rw [hall fragments [] (by simpa using htext), hall [a ++ (w ++ q)] [] (by simp)]

/-! ## Texts that are not tight -/

/-- The white space that is there when a sentence is completed at the earliest. -/
theorem FirstSentence.earliest {a w q : Str} (h : FirstSentence a (a ++ (w ++ q)))
    (hq : StartsSolid q) (hne : w ≠ []) : FirstSentence a (a ++ w.take (completionWidth a w)) := by
  obtain ⟨c, w, rfl⟩ := List.exists_cons_of_ne_nil hne
  unfold completionWidth
  split
  · assumption
  · rename_i hnot
    rcases h.completion with ⟨c', r, hr, hone⟩ | ⟨r, hr, htwo⟩
    · obtain ⟨rfl, -⟩ := List.cons.inj hr
      exact absurd hone hnot
    · obtain ⟨rfl, hr'⟩ := List.cons.inj hr
      cases w with
      | nil =>
          -- the second newline would start the solid part
          obtain rfl : q = '\n' :: r := hr'
          cases hq
      | cons c' w =>
          obtain ⟨rfl, -⟩ := List.cons.inj hr'
          simpa using htwo

/-- Two ways to push what follows a sentence are two ways to push the whole. -/
theorem exists_fragments {a w q : Str} (hfirst : FirstSentence a (a ++ (w ++ q))) (hw : White w)
    (hq : StartsSolid q) (fragments : List Str) (hflat : fragments.flatten = q) :
    ∃ fragments' : List Str, fragments'.flatten = a ++ (w ++ q) ∧
      contentsFrom [] fragments' = trimEnd a :: contentsFrom [] fragments := by
  by_cases hne : w = []
  · -- the sentence is completed by the first character pushed after it
    subst hne
    induction fragments with
    | nil =>
        obtain ⟨r, hr, -, hr'⟩ := hfirst.split (List.prefix_append _ _)
        obtain rfl := List.append_cancel_left hr
        exact absurd hflat.symm (by simpa using hr')
    | cons text fragments ih =>
        cases text with
        | nil =>
            obtain ⟨gs, hgs, hc⟩ := ih (by simpa using hflat)
            exact ⟨gs, hgs, by rw [hc, contentsFrom_nil_cons]⟩
        | cons c text =>
            subst hflat
            have hpre : FirstSentence a (a ++ ([] ++ c :: text)) := by
              rcases hfirst.completion with ⟨c', r, hr, hone⟩ | ⟨r, hr, -⟩
              · obtain ⟨rfl, -⟩ := List.cons.inj (by simpa using hr)
                simpa using hone.append text
              · obtain ⟨rfl, -⟩ := List.cons.inj (by simpa using hr)
                cases hq
            have hsolid : StartsSolid (c :: text) := by
              rw [List.flatten_cons] at hq
              exact hq.of_append
            refine ⟨(a ++ c :: text) :: fragments, by simp, ?_⟩
            obtain ⟨hc, hrem⟩ := contentsOf_turn hpre hw hsolid
            rw [List.nil_append] at hc hrem
            rw [contentsFrom, List.nil_append, hc, hrem, contentsFrom, List.nil_append,
              List.cons_append]
  · -- the white space completes it and is skipped
    refine ⟨(a ++ w) :: fragments, by simp [hflat], ?_⟩
    have hpre : FirstSentence a (a ++ (w ++ [])) := by
      rw [List.append_nil]
      have h := (hfirst.earliest hq hne).append (w.drop (completionWidth a w))
      rwa [List.append_assoc, List.take_append_drop] at h
    obtain ⟨hc, hrem⟩ := contentsOf_turn hpre hw startsSolid_nil
    obtain ⟨hc0, hr0⟩ := contentsOf_none (s := []) rfl
    rw [List.append_nil, hc0] at hc
    rw [List.append_nil, hr0] at hrem
    rw [contentsFrom, List.nil_append, hc, hrem, List.singleton_append]

/-- White space that arrives late stays in front of the next sentence. -/
theorem contentsFrom_late {a w q b : Str} (hfirst : FirstSentence a (a ++ (w ++ q)))
    (hw : White w) (hq : StartsSolid q) (hwidth : completionWidth a w < w.length)
    (hnext : FirstSentence b q) (hb : b <+: q) :
    contentsFrom [] [a ++ w.take (completionWidth a w), w.drop (completionWidth a w) ++ q] ≠
      contentsFrom [] [a ++ (w ++ q)] := by
  obtain ⟨r, rfl, hvis, -⟩ := hnext.split hb
  have hne : w ≠ [] := by
    rintro rfl
    simp at hwidth
  have hsplit := List.take_append_drop (completionWidth a w) w
  have hlate : (w.drop (completionWidth a w)) ≠ [] := by
    rw [Ne, List.drop_eq_nil_iff]
    omega
  have hearly := hfirst.earliest hq hne
  generalize completionWidth a w = n at *
  rw [← hsplit] at hw
  obtain ⟨hw₁, hw₂⟩ := hw.of_append
  obtain ⟨w', q', rfl, hw', hq'⟩ := exists_white r
  -- the two first contents of either way
  obtain ⟨hc₁, hr₁⟩ := contentsOf_turn (q := []) (by simpa using hearly) hw₁ startsSolid_nil
  obtain ⟨hc0, hr0⟩ := contentsOf_none (s := []) rfl
  obtain ⟨hc₂, -⟩ := contentsOf_turn hnext hw' hq'
  have hshift := (firstSentence_shift hw₂).mpr hnext
  rw [← List.append_assoc] at hshift
  obtain ⟨hc₃, -⟩ := contentsOf_turn hshift hw' hq'
  obtain ⟨hc, -⟩ := contentsOf_turn hfirst (hsplit ▸ hw) hq
  rw [List.append_nil, hc0] at hc₁
  rw [List.append_nil, hr0] at hr₁
  rw [List.append_assoc, trimEnd_append_left hvis] at hc₃
  rw [contentsFrom_single, hc, hc₂, contentsFrom, List.nil_append, hc₁, hr₁,
    contentsFrom, List.nil_append, hc₃]
  intro heq
  simp only [List.cons_append, List.nil_append, List.cons.injEq, true_and] at heq
  exact hlate (by simpa using heq.1)

/-- A text in which the fragments do not matter is tight. -/
theorem tight_of_contentsFrom_eq {text : Str}
    (h : ∀ fs gs : List Str, fs.flatten = text → gs.flatten = text →
      contentsFrom [] fs = contentsFrom [] gs) : Tight text := by
  induction hn : text.length using Nat.strongRecOn generalizing text with
  | ind n ih =>
      rcases firstSentence_cases text with hnone | ⟨a, r, rfl, hfirst, ha, -⟩
      · exact .none hnone
      · obtain ⟨w, q, rfl, hw, hq⟩ := exists_white r
        rcases firstSentence_cases q with hnone | ⟨b, r', hb, hnext, -, -⟩
        · exact .last hfirst hw hq hnone
        · have hwidth : w.length ≤ completionWidth a w := by
            rcases Nat.lt_or_ge (completionWidth a w) w.length with hlt | hle
            · refine absurd (h _ _ ?_ ?_) (contentsFrom_late hfirst hw hq hlt hnext ⟨r', hb.symm⟩)
              · rw [List.flatten_cons, List.flatten_cons, List.flatten_nil, List.append_nil,
                  List.append_assoc, ← List.append_assoc (w.take _), List.take_append_drop]
              · simp
            · exact hle
          refine .next hfirst hw hq hwidth ?_
          have hlen : q.length < n := by
            have hpos : 0 < a.length := by
              rw [List.length_pos_iff]
              rintro rfl
              exact ha rfl
            simp only [List.length_append] at hn
            omega
          refine ih q.length hlen ?_ rfl
          intro fs gs hfs hgs
          obtain ⟨fs', hfs', hcf⟩ := exists_fragments hfirst hw hq fs hfs
          obtain ⟨gs', hgs', hcg⟩ := exists_fragments hfirst hw hq gs hgs
          have heq := h fs' gs' hfs' hgs'
          rw [hcf, hcg] at heq
          exact (List.cons.inj heq).2

/-- **The contents do not depend on the fragments exactly in tight texts.** -/
theorem cleanContents_independent_iff (text : Str) :
    (∀ fs gs : List Str, fs.flatten = text → gs.flatten = text →
      cleanContents fs = cleanContents gs) ↔ Tight text := by
  simp only [cleanContents_eq, Option.some.injEq]
  constructor
  · exact tight_of_contentsFrom_eq
  · intro h fs gs hfs hgs
    rw [h.contentsFrom_eq hfs, h.contentsFrom_eq hgs]

/-- Two spaces between two sentences: when the second arrives with the next
fragment, it stays in front of the sentence. -/
theorem cleanContents_keeps_late_space :
    ¬ ∀ fs gs : List Str, fs.flatten = gs.flatten → cleanContents fs = cleanContents gs := by
  intro h
  exact absurd (h ["Hello world. ".toList, " Next one. ".toList] ["Hello world.  Next one. ".toList]
    (by decide)) (by decide +kernel)

end Monoloop.Interpreter
