import Monoloop.Interpreter.SentenceScan

/-!
# The first sentence of a buffer

The scan's state at index `i` is a fold over the bytes before it, so whether `i`
is a sentence end is a question about one turn (`Ends`), and the scan finds the
least such index. `FirstSentence a s` says that it ends the part `a` of `s`.

A first sentence is not changed by text pushed later (`FirstSentence.append`),
is moved by white space in front (`firstSentence_shift`), and is completed by
the one character or the two newlines that follow it
(`FirstSentence.completion`).
-/

namespace Monoloop.Interpreter

open Utf8

/-! ## Where the first sentence ends -/

/-- The scan's state when it reaches index `i`. -/
def stateAt (bs : List UInt8) (i : Nat) : ScanState := (bs.take i).foldl nextState {}

/-- The turn at index `i` finds the end `e`. -/
def Ends (s : Str) (i e : Nat) : Prop :=
  ∃ b, (bytes s)[i]? = some b ∧
    scanByte s (bytes s) (stateAt (bytes s) i) i b = some (.found e)

theorem stateAt_succ {bs : List UInt8} {i : Nat} {b : UInt8} (hi : bs[i]? = some b) :
    stateAt bs (i + 1) = nextState (stateAt bs i) b := by
  simp only [stateAt, List.take_add_one, hi, Option.toList_some, List.foldl_append,
    List.foldl_cons, List.foldl_nil]

theorem stateAt_append {bs : List UInt8} (bs' : List UInt8) {i : Nat} (h : i ≤ bs.length) :
    stateAt (bs ++ bs') i = stateAt bs i := by
  rw [stateAt, List.take_append_of_le_length h]
  rfl

theorem stateAt_shift {w : List UInt8} (hw : ∀ b ∈ w, isAsciiWhitespace b = true)
    (bs : List UInt8) (i : Nat) : stateAt (w ++ bs) (w.length + i) = stateAt bs i := by
  have hfold : w.foldl nextState {} = {} := by
    induction w with
    | nil => rfl
    | cons b w ih =>
        rw [List.foldl_cons, nextState_white (hw b List.mem_cons_self)]
        exact ih (fun x hx => hw x (List.mem_cons_of_mem _ hx))
  rw [stateAt, List.take_length_add_append, List.foldl_append, hfold]
  rfl

/-- The scan from index `i` finds the first end at or after `i`. -/
theorem scanFrom_eq {s : Str} {rest : List UInt8} {i : Nat} (h : (bytes s).drop i = rest) :
    (∃ j e, i ≤ j ∧ Ends s j e ∧ (∀ k e', i ≤ k → k < j → ¬ Ends s k e') ∧
        scanFrom s (bytes s) (stateAt (bytes s) i) i rest = some (some e)) ∨
      ((∀ k e', i ≤ k → ¬ Ends s k e') ∧
        scanFrom s (bytes s) (stateAt (bytes s) i) i rest = some none) := by
  induction rest generalizing i with
  | nil =>
      refine .inr ⟨?_, rfl⟩
      rintro k e' hk ⟨b, hb, -⟩
      have hlt := (List.getElem?_eq_some_iff.mp hb).1
      have hlen := List.drop_eq_nil_iff.mp h
      omega
  | cons b rest ih =>
      have hi : (bytes s)[i]? = some b := by
        have h0 : ((bytes s).drop i)[0]? = some b := by rw [h]; rfl
        rwa [List.getElem?_drop] at h0
      have hrest : (bytes s).drop (i + 1) = rest := by
        rw [← List.drop_drop, h]
        rfl
      -- what is found at `i` itself, and what the rest of the scan finds
      have hfound : ∀ e, scanByte s (bytes s) (stateAt (bytes s) i) i b = some (.found e) →
          ∃ j e, i ≤ j ∧ Ends s j e ∧ (∀ k e', i ≤ k → k < j → ¬ Ends s k e') ∧
            scanFrom s (bytes s) (stateAt (bytes s) i) i (b :: rest) = some (some e) := by
        intro e he
        refine ⟨i, e, Nat.le_refl i, ⟨b, hi, he⟩, fun k e' h1 h2 => by omega, ?_⟩
        simp only [scanFrom, he, Option.bind_eq_bind, Option.bind_some]
      rcases scanByte_cases hi (stateAt (bytes s) i) with hn | ⟨he, -⟩ | ⟨he, -⟩
      · have hnot : ∀ e', ¬ Ends s i e' := by
          rintro e' ⟨b', hb', he'⟩
          rw [hi] at hb'
          obtain rfl := Option.some.inj hb'
          rw [hn] at he'
          cases he'
        have hscan : scanFrom s (bytes s) (stateAt (bytes s) i) i (b :: rest) =
            scanFrom s (bytes s) (stateAt (bytes s) (i + 1)) (i + 1) rest := by
          simp only [scanFrom, hn, Option.bind_eq_bind, Option.bind_some, stateAt_succ hi]
        rw [hscan]
        rcases ih hrest with ⟨j, e, hj, hends, hmin, hres⟩ | ⟨hmin, hres⟩
        · refine .inl ⟨j, e, by omega, hends, ?_, hres⟩
          intro k e' hk hkj
          rcases Nat.eq_or_lt_of_le hk with rfl | hlt
          · exact hnot e'
          · exact hmin k e' hlt hkj
        · refine .inr ⟨?_, hres⟩
          intro k e' hk
          rcases Nat.eq_or_lt_of_le hk with rfl | hlt
          · exact hnot e'
          · exact hmin k e' hlt
      · exact .inl (hfound _ he)
      · exact .inl (hfound _ he)

theorem Ends.unique {s : Str} {i e e' : Nat} (h : Ends s i e) (h' : Ends s i e') : e = e' := by
  obtain ⟨b, hb, he⟩ := h
  obtain ⟨b', hb', he'⟩ := h'
  obtain rfl := Option.some.inj (hb.symm.trans hb')
  rw [he] at he'
  exact Turn.found.inj (Option.some.inj he')

/-- **The scan finds the first end**, and never slices inside a character. -/
theorem findSentenceEnd_eq_some {s : Str} {e : Nat} :
    findSentenceEnd s = some (some e) ↔ ∃ j, Ends s j e ∧ ∀ k e', k < j → ¬ Ends s k e' := by
  rcases scanFrom_eq (s := s) (i := 0) rfl with ⟨j, e₀, -, hends, hmin, hres⟩ | ⟨hmin, hres⟩
  · replace hres : findSentenceEnd s = some (some e₀) := hres
    rw [hres]
    constructor
    · intro h
      obtain rfl := Option.some.inj (Option.some.inj h)
      exact ⟨j, hends, fun k e' hk => hmin k e' (Nat.zero_le k) hk⟩
    · rintro ⟨j', hends', hmin'⟩
      rcases Nat.lt_trichotomy j j' with hlt | rfl | hgt
      · exact absurd hends (hmin' j e₀ hlt)
      · rw [hends.unique hends']
      · exact absurd hends' (hmin j' e (Nat.zero_le j') hgt)
  · replace hres : findSentenceEnd s = some none := hres
    rw [hres]
    constructor
    · intro h
      cases Option.some.inj h
    · rintro ⟨j, hends, -⟩
      exact absurd hends (hmin j e (Nat.zero_le j))

theorem findSentenceEnd_isSome (s : Str) : ∃ r, findSentenceEnd s = some r := by
  rcases scanFrom_eq (s := s) (i := 0) rfl with ⟨j, e, -, -, -, hres⟩ | ⟨-, hres⟩
  · exact ⟨some e, hres⟩
  · exact ⟨none, hres⟩

theorem Ends.lt {s : Str} {i e : Nat} (h : Ends s i e) : i + 1 < (bytes s).length := by
  obtain ⟨b, hb, he⟩ := h
  have hlt := (List.getElem?_eq_some_iff.mp hb).1
  rcases Nat.lt_or_ge (i + 1) (bytes s).length with hlt' | hge
  · exact hlt'
  · rw [scanByte_last hb (by omega)] at he
    cases he

theorem Ends.le {s : Str} {i e : Nat} (h : Ends s i e) : i ≤ e := by
  obtain ⟨b, hb, he⟩ := h
  rcases scanByte_cases hb (stateAt (bytes s) i) with h | ⟨h, -⟩ | ⟨h, -⟩
  · rw [h] at he
    cases he
  · rw [h] at he
    have := Turn.found.inj (Option.some.inj he)
    omega
  · rw [h] at he
    have := Turn.found.inj (Option.some.inj he)
    omega

/-- Whether an index is an end does not depend on text pushed later. -/
theorem ends_append {p : Str} (q : Str) {i e : Nat} (h : i + 1 < (bytes p).length) :
    Ends (p ++ q) i e ↔ Ends p i e := by
  simp only [Ends, bytes_append]
  rw [List.getElem?_append_left (by omega), stateAt_append _ (by omega)]
  simp only [scanByte_append q h]

/-- White space in front of the buffer moves the ends by its length. -/
theorem ends_shift {w : Str} (hw : ∀ b ∈ bytes w, isAsciiWhitespace b = true) (s : Str)
    {i e : Nat} : Ends (w ++ s) ((bytes w).length + i) ((bytes w).length + e) ↔ Ends s i e := by
  simp only [Ends, bytes_append]
  rw [List.getElem?_append_right (by omega),
    show (bytes w).length + i - (bytes w).length = i by omega, stateAt_shift hw]
  constructor
  · rintro ⟨b, hb, he⟩
    refine ⟨b, hb, ?_⟩
    rw [scanByte_shift hw s (List.getElem?_eq_some_iff.mp hb).1] at he
    obtain ⟨t, ht, hshift⟩ := Option.map_eq_some_iff.mp he
    cases t with
    | next st => cases hshift
    | found e' =>
        have := Turn.found.inj hshift
        rw [ht, show e' = e by omega]
  · rintro ⟨b, hb, he⟩
    refine ⟨b, hb, ?_⟩
    rw [scanByte_shift hw s (List.getElem?_eq_some_iff.mp hb).1, he]
    rfl

/-- Nothing ends inside white space at the front. -/
theorem not_ends_white {w : Str} (hw : ∀ b ∈ bytes w, isAsciiWhitespace b = true) (s : Str)
    {i e : Nat} (hi : i < (bytes w).length) : ¬ Ends (w ++ s) i e := by
  rintro ⟨b, hb, he⟩
  have hbw : b ∈ bytes w := by
    rw [bytes_append, List.getElem?_append_left hi] at hb
    exact List.mem_of_getElem? hb
  rcases scanByte_cases hb (stateAt (bytes (w ++ s)) i) with h | ⟨-, -, hv, -⟩ | ⟨-, -, -, hvis⟩
  · rw [h] at he
    cases he
  · -- a terminator is no white space
    rw [isWhitespace_charOf (hw b hbw)] at hv
    cases hv
  · -- before a double newline something visible must stand
    obtain ⟨p, q, hs, hp⟩ := split_of_ascii hb (ascii_of_isAsciiWhitespace (hw b hbw))
    apply hvis p _ hs hp
    obtain ⟨m, rfl, -⟩ := append_of_le hs.symm (by omega)
    have hnil := visible_eq_nil_of_ascii hw
    rw [visible_append] at hnil
    exact (List.append_eq_nil_iff.mp hnil).1

/-! ## The three facts about the first sentence -/

/-- The first sentence of `s`, completed by what follows it. -/
def FirstSentence (a s : Str) : Prop := findSentenceEnd s = some (some (bytes a).length)

theorem Ends.split {s : Str} {i e : Nat} (h : Ends s i e) :
    ∃ a r, s = a ++ r ∧ (bytes a).length = e ∧ visible a ≠ [] ∧ r ≠ [] := by
  obtain ⟨b, hb, he⟩ := h
  rcases scanByte_cases hb (stateAt (bytes s) i) with
    h | ⟨h, hascii, hv, d, hd, hdascii⟩ | ⟨h, rfl, hd, hvis⟩
  · rw [h] at he
    cases he
  · rw [h] at he
    obtain rfl := Turn.found.inj (Option.some.inj he)
    obtain ⟨p, q, rfl, hp⟩ := split_of_ascii hb hascii
    refine ⟨p ++ [charOf b], q, by simp, ?_, ?_, ?_⟩
    · simp [encode_charOf hascii, hp]
    · simp [visible, hv]
    · rintro rfl
      have hlt := (List.getElem?_eq_some_iff.mp hd).1
      simp only [bytes_append, bytes_cons, bytes_nil, encode_charOf hascii, List.length_append,
        List.length_cons, List.length_nil] at hlt
      omega
  · rw [h] at he
    obtain rfl := Turn.found.inj (Option.some.inj he)
    obtain ⟨p, q, hs, hp⟩ := split_of_ascii hb (by decide)
    exact ⟨p, _, hs, hp, hvis p _ hs hp, by simp⟩

/-- A buffer holds no complete sentence, or starts with one. -/
theorem firstSentence_cases (s : Str) :
    findSentenceEnd s = some none ∨
      ∃ a r, s = a ++ r ∧ FirstSentence a s ∧ visible a ≠ [] ∧ r ≠ [] := by
  obtain ⟨r, hr⟩ := findSentenceEnd_isSome s
  cases r with
  | none => exact .inl hr
  | some e =>
      obtain ⟨j, hends, -⟩ := findSentenceEnd_eq_some.mp hr
      obtain ⟨a, r, hs, rfl, hv, hr'⟩ := hends.split
      exact .inr ⟨a, r, hs, hr, hv, hr'⟩

/-- The first end of a text stays the first when text is pushed. -/
theorem Ends.append_first {p : Str} {j e : Nat} (hends : Ends p j e)
    (hmin : ∀ k e', k < j → ¬ Ends p k e') (q : Str) :
    Ends (p ++ q) j e ∧ ∀ k e', k < j → ¬ Ends (p ++ q) k e' := by
  have hlt := hends.lt
  refine ⟨(ends_append q hlt).mpr hends, ?_⟩
  intro k e' hk hends'
  exact hmin k e' hk ((ends_append q (by omega)).mp hends')

/-- **Text pushed later does not change a first sentence.** -/
theorem FirstSentence.append {a p : Str} (h : FirstSentence a p) (q : Str) :
    FirstSentence a (p ++ q) := by
  obtain ⟨j, hends, hmin⟩ := findSentenceEnd_eq_some.mp h
  exact findSentenceEnd_eq_some.mpr ⟨j, hends.append_first hmin q⟩

/-- **A boundary is never moved or retracted** by the text that follows. -/
theorem boundary_stable {s : Str} {e : Nat} (h : findSentenceEnd s = some (some e)) (t : Str) :
    findSentenceEnd (s ++ t) = some (some e) := by
  obtain ⟨j, hends, hmin⟩ := findSentenceEnd_eq_some.mp h
  obtain ⟨hends', hmin'⟩ := hends.append_first hmin t
  exact findSentenceEnd_eq_some.mpr ⟨j, hends', hmin'⟩

/-- A closing quote after the dot that is followed by more text. -/
theorem quoted_boundary_stable :
    findSentenceEnd ("He said \"Stop here.\"".toList ++ " Then he left.".toList) = some (some 19) :=
  boundary_stable (by decide +kernel) " Then he left.".toList

/-- **White space in front only becomes part of the first sentence.** -/
theorem firstSentence_shift {w : Str} (hw : ∀ b ∈ bytes w, isAsciiWhitespace b = true)
    {a s : Str} : FirstSentence (w ++ a) (w ++ s) ↔ FirstSentence a s := by
  simp only [FirstSentence, findSentenceEnd_eq_some, bytes_append, List.length_append]
  constructor
  · rintro ⟨j, hends, hmin⟩
    rcases Nat.lt_or_ge j (bytes w).length with hlt | hge
    · exact absurd hends (not_ends_white hw s hlt)
    · obtain ⟨i, rfl⟩ := Nat.exists_eq_add_of_le hge
      refine ⟨i, (ends_shift hw s).mp hends, ?_⟩
      intro k e' hk hends'
      exact hmin _ _ (by omega) ((ends_shift hw s).mpr hends')
  · rintro ⟨j, hends, hmin⟩
    refine ⟨(bytes w).length + j, (ends_shift hw s).mpr hends, ?_⟩
    intro k e' hk hends'
    rcases Nat.lt_or_ge k (bytes w).length with hlt | hge
    · exact not_ends_white hw s hlt hends'
    · obtain ⟨i, rfl⟩ := Nat.exists_eq_add_of_le hge
      have hle := hends'.le
      obtain ⟨e, rfl⟩ := Nat.exists_eq_add_of_le (show (bytes w).length ≤ e' by omega)
      exact hmin i e (by omega) ((ends_shift hw s).mp hends')

theorem FirstSentence.split {a s : Str} (h : FirstSentence a s) (hpre : a <+: s) :
    ∃ r, s = a ++ r ∧ visible a ≠ [] ∧ r ≠ [] := by
  obtain ⟨r, rfl⟩ := hpre
  obtain ⟨j, hends, -⟩ := findSentenceEnd_eq_some.mp h
  obtain ⟨a', r', hs, hlen, hv, hr⟩ := hends.split
  obtain ⟨rfl, rfl⟩ := append_inj_bytes hs hlen.symm
  exact ⟨r, rfl, hv, hr⟩

/-- What was found in a buffer is found in any prefix that reaches past the
index it was found at. -/
theorem firstSentence_of_append {a p q : Str} {j : Nat} (h : FirstSentence a (p ++ q))
    (hends : Ends (p ++ q) j (bytes a).length) (hj : j + 1 < (bytes p).length) :
    FirstSentence a p := by
  obtain ⟨i, hi, hmin⟩ := findSentenceEnd_eq_some.mp h
  rcases Nat.lt_trichotomy i j with hlt | rfl | hgt
  · refine findSentenceEnd_eq_some.mpr ⟨i, (ends_append q (by omega)).mp hi, ?_⟩
    intro k e' hk hends'
    exact hmin k e' hk ((ends_append q (by omega)).mpr hends')
  · refine findSentenceEnd_eq_some.mpr ⟨i, (ends_append q hj).mp hi, ?_⟩
    intro k e' hk hends'
    exact hmin k e' hk ((ends_append q (by omega)).mpr hends')
  · exact absurd hends (hmin j _ hgt)

/-- **How much of the buffer completes a sentence**: the one character after
it, or the two newlines after it. -/
theorem FirstSentence.completion {a r : Str} (h : FirstSentence a (a ++ r)) :
    (∃ c r', r = c :: r' ∧ FirstSentence a (a ++ [c])) ∨
      ∃ r', r = '\n' :: '\n' :: r' ∧ FirstSentence a (a ++ ['\n', '\n']) := by
  obtain ⟨j, hends, hmin⟩ := findSentenceEnd_eq_some.mp h
  have hcopy := hends
  obtain ⟨b, hb, he⟩ := hcopy
  rcases scanByte_cases hb (stateAt (bytes (a ++ r)) j) with
    hn | ⟨hf, hascii, -, d, hd, hdascii⟩ | ⟨hf, rfl, hd, -⟩
  · rw [hn] at he
    cases he
  · -- a terminator: the byte after it is the first of `r`
    left
    rw [hf] at he
    have hlen := Turn.found.inj (Option.some.inj he)
    obtain ⟨p, q, hs, hp⟩ := split_of_ascii hd hdascii
    obtain ⟨rfl, rfl⟩ := append_inj_bytes hs (by omega)
    refine ⟨charOf d, q, rfl, ?_⟩
    apply firstSentence_of_append (q := q) (j := j)
    · simpa using h
    · simpa using hends
    · simp only [bytes_append, bytes_cons, bytes_nil, List.append_nil, List.length_append,
        encode_charOf hdascii, List.length_singleton]
      omega
  · -- a paragraph: both newlines belong to `r`
    right
    rw [hf] at he
    have hlen := Turn.found.inj (Option.some.inj he)
    obtain ⟨p, q, hs, hp⟩ := split_of_ascii hb (by decide)
    obtain ⟨rfl, rfl⟩ := append_inj_bytes hs (by omega)
    obtain ⟨p', q', hs', hp'⟩ := split_of_ascii hd (by decide)
    rw [show a ++ charOf 0x0a :: q = (a ++ ['\n']) ++ q by simp; rfl] at hs'
    have hone : (bytes (a ++ ['\n'])).length = (bytes a).length + 1 := by
      simp only [bytes_append, bytes_cons, bytes_nil, List.append_nil, List.length_append]
      rfl
    obtain ⟨rfl, rfl⟩ := append_inj_bytes hs' (by omega)
    refine ⟨q', rfl, ?_⟩
    have hnl : charOf 0x0a = '\n' := rfl
    apply firstSentence_of_append (q := q') (j := j)
    · simpa [hnl] using h
    · simpa [hnl] using hends
    · simp only [bytes_append, bytes_cons, bytes_nil, List.append_nil, List.length_append]
      show j + 1 < (bytes a).length + 2
      omega

end Monoloop.Interpreter
