import Monoloop.Interpreter.Sentence

/-!
# What the sentence scan sees

One turn of the scan reads the byte at its index, the byte after it and, for the
tests at a dot and at a double newline, the buffer before it. Three facts about
a turn carry what is proved of the scan:

* `scanByte_cases`: it slices at character boundaries only, and what it comes to
  is the next state or one of two kinds of end;
* `scanByte_append`: it looks one byte past its index and no further, so text
  pushed later does not change it;
* `scanByte_shift`: white space in front of the buffer only moves what it finds.
-/

namespace Monoloop.Interpreter

open Utf8

/-! ## Looking back -/

theorem runStart_le (p : UInt8 → Bool) (bs : List UInt8) (i : Nat) : runStart p bs i ≤ i := by
  induction i with
  | zero => exact Nat.le_refl 0
  | succ i ih =>
      simp only [runStart]
      split <;> omega

/-- A run does not reach past what stops it. -/
theorem runStart_stop {p : UInt8 → Bool} {bs : List UInt8} {i : Nat}
    (h : 0 < runStart p bs i) : (bs[runStart p bs i - 1]?).any p = false := by
  induction i with
  | zero => exact absurd h (Nat.lt_irrefl 0)
  | succ i ih =>
      simp only [runStart] at h ⊢
      split at h
      · rename_i hp
        rw [if_pos hp]
        exact ih h
      · rename_i hp
        rw [if_neg hp]
        simpa using hp

/-- What stands in a run satisfies its predicate. -/
theorem runStart_run {p : UInt8 → Bool} {bs : List UInt8} {i j : Nat}
    (hj : runStart p bs i ≤ j) (hi : j < i) : (bs[j]?).any p = true := by
  induction i with
  | zero => omega
  | succ i ih =>
      simp only [runStart] at hj
      split at hj
      · rename_i hp
        rcases Nat.lt_succ_iff_lt_or_eq.mp hi with hlt | rfl
        · exact ih hj hlt
        · exact hp
      · omega

theorem runStart_append (p : UInt8 → Bool) {bs : List UInt8} (bs' : List UInt8) {i : Nat}
    (h : i ≤ bs.length) : runStart p (bs ++ bs') i = runStart p bs i := by
  induction i with
  | zero => rfl
  | succ i ih =>
      simp only [runStart]
      rw [List.getElem?_append_left (by omega), ih (by omega)]

theorem runStart_shift {p : UInt8 → Bool} {w : List UInt8} (hw : ∀ b ∈ w, p b = false)
    (bs : List UInt8) (i : Nat) :
    runStart p (w ++ bs) (w.length + i) = w.length + runStart p bs i := by
  induction i with
  | zero =>
      -- the byte before is the last of `w`, which stops the run
      cases hl : w.length with
      | zero => rfl
      | succ n =>
          have hlt : n < w.length := by omega
          simp only [Nat.add_zero, runStart]
          rw [List.getElem?_append_left hlt, List.getElem?_eq_getElem hlt, Option.any_some,
            hw _ (List.getElem_mem hlt)]
          simp
  | succ i ih =>
      rw [← Nat.add_assoc]
      simp only [runStart]
      rw [List.getElem?_append_right (by omega), show w.length + i - w.length = i by omega, ih]
      split <;> omega

theorem byteBefore_append {bs : List UInt8} (bs' : List UInt8) {i : Nat} (h : i ≤ bs.length) :
    byteBefore (bs ++ bs') i = byteBefore bs i := by
  cases i with
  | zero => rfl
  | succ i => exact List.getElem?_append_left (by omega)

theorem byteBefore_shift {p : UInt8 → Bool} {w : List UInt8} (hw : ∀ b ∈ w, p b = false)
    (bs : List UInt8) (i : Nat) :
    (byteBefore (w ++ bs) (w.length + i)).any p = (byteBefore bs i).any p := by
  cases i with
  | zero =>
      cases hl : w.length with
      | zero => rfl
      | succ n =>
          have hlt : n < w.length := by omega
          simp only [byteBefore]
          rw [List.getElem?_append_left hlt, List.getElem?_eq_getElem hlt, Option.any_some,
            hw _ (List.getElem_mem hlt)]
          rfl
  | succ i =>
      rw [← Nat.add_assoc]
      simp only [byteBefore]
      rw [List.getElem?_append_right (by omega), show w.length + i - w.length = i by omega]

theorem getElem?_shift (w bs : List UInt8) (i : Nat) : (w ++ bs)[w.length + i + 1]? = bs[i + 1]? := by
  rw [List.getElem?_append_right (by omega)]
  congr 1
  omega

/-! ## Slices -/

theorem slice_append {p : Str} (q : Str) {a b : Nat} (h : b ≤ (bytes p).length) :
    slice (p ++ q) a b = slice p a b := by
  simp only [slice, splitAt_append_of_le q h]
  cases splitAt p b <;> rfl

theorem slice_shift (w s : Str) (a b : Nat) :
    slice (w ++ s) ((bytes w).length + a) ((bytes w).length + b) = slice s a b := by
  simp only [slice, splitAt_append_add]
  cases splitAt s b with
  | none => rfl
  | some r =>
      simp only [Option.map_some, Option.bind_eq_bind, Option.bind_some, splitAt_append_add]
      cases splitAt r.1 a <;> rfl

/-- A slice between two offsets that are cuts succeeds. -/
theorem slice_isSome {s p q p' q' : Str} (h : s = p ++ q) (h' : s = p' ++ q')
    (hle : (bytes p).length ≤ (bytes p').length) :
    ∃ m, slice s (bytes p).length (bytes p').length = some m := by
  subst h
  obtain ⟨m, rfl, -⟩ := append_of_le h' hle
  refine ⟨m, ?_⟩
  rw [slice, h', splitAt_append]
  simp

/-- The offset after an ASCII byte is a cut. -/
theorem split_after_ascii {s : Str} {i : Nat} {b : UInt8} (hi : (bytes s)[i]? = some b)
    (hb : b.toNat < 128) : ∃ p q, s = p ++ q ∧ (bytes p).length = i + 1 := by
  obtain ⟨p, q, rfl, hp⟩ := split_of_ascii hi hb
  refine ⟨p ++ [charOf b], q, by simp, ?_⟩
  simp [encode_charOf hb, hp]

/-- The start of a run that ends at a cut is a cut, when the run is made of
ASCII bytes or is stopped by one. -/
theorem split_runStart {p : UInt8 → Bool} {s : Str} {i : Nat} {b : UInt8}
    (hi : (bytes s)[i]? = some b) (hb : b.toNat < 128)
    (hp : (∀ x, p x = true → x.toNat < 128) ∨ ∀ x, p x = false → x.toNat < 128) :
    ∃ u v, s = u ++ v ∧ (bytes u).length = runStart p (bytes s) i := by
  have hlt : i < (bytes s).length := (List.getElem?_eq_some_iff.mp hi).1
  have hle := runStart_le p (bytes s) i
  rcases hp with hp | hp
  · -- the run's first byte is ASCII; an empty run starts at `i`
    have hx : ∃ x, (bytes s)[runStart p (bytes s) i]? = some x ∧ x.toNat < 128 := by
      rcases Nat.lt_or_eq_of_le hle with h | h
      · have hrun := runStart_run (Nat.le_refl _) h
        rw [List.getElem?_eq_getElem (by omega), Option.any_some] at hrun
        exact ⟨_, List.getElem?_eq_getElem (by omega), hp _ hrun⟩
      · rw [h]
        exact ⟨b, hi, hb⟩
    obtain ⟨x, hx, hxb⟩ := hx
    obtain ⟨u, v, hs, hu⟩ := split_of_ascii hx hxb
    exact ⟨u, _, hs, hu⟩
  · -- the run is at the front, or stopped by an ASCII byte
    rcases Nat.eq_zero_or_pos (runStart p (bytes s) i) with h0 | hpos
    · exact ⟨[], s, rfl, by rw [h0]; rfl⟩
    · have hstop := runStart_stop hpos
      have hlt' : runStart p (bytes s) i - 1 < (bytes s).length := by omega
      rw [List.getElem?_eq_getElem hlt', Option.any_some] at hstop
      obtain ⟨u, v, hs, hu⟩ :=
        split_after_ascii (List.getElem?_eq_getElem hlt') (hp _ hstop)
      exact ⟨u, v, hs, by omega⟩

/-! ## Letters, digits and white space are ASCII -/

theorem ascii_of_isAsciiAlphabetic (b : UInt8) (h : isAsciiAlphabetic b = true) :
    b.toNat < 128 := by
  simp only [isAsciiAlphabetic, isAsciiLowercase, isAsciiUppercase, Bool.or_eq_true,
    Bool.and_eq_true, decide_eq_true_eq, UInt8.le_iff_toNat_le] at h
  change (_ ∧ b.toNat ≤ 122) ∨ (_ ∧ b.toNat ≤ 90) at h
  omega

theorem not_alphabetic_of_white {b : UInt8} (h : isAsciiWhitespace b = true) :
    isAsciiAlphabetic b = false := by
  simp only [isAsciiWhitespace, Bool.or_eq_true, decide_eq_true_eq] at h
  rcases h with (((rfl | rfl) | rfl) | rfl) | rfl <;> decide

theorem not_digit_of_white {b : UInt8} (h : isAsciiWhitespace b = true) :
    isAsciiDigit b = false := by
  simp only [isAsciiWhitespace, Bool.or_eq_true, decide_eq_true_eq] at h
  rcases h with (((rfl | rfl) | rfl) | rfl) | rfl <;> decide

/-! ## The tests at a dot -/

section Tests

variable {p : Str} (q : Str) {i : Nat}

theorem looksLikeOrderedListMarker_append {bs : List UInt8} (bs' : List UInt8)
    (h : i + 1 < bs.length) :
    looksLikeOrderedListMarker (bs ++ bs') i = looksLikeOrderedListMarker bs i := by
  have hle := runStart_le isAsciiDigit bs i
  simp only [looksLikeOrderedListMarker]
  rw [runStart_append _ _ (by omega), byteBefore_append _ (by omega),
    List.getElem?_append_left (by omega)]

theorem looksLikeAbbreviationOrDecimal_append (h : i + 1 < (bytes p).length) :
    looksLikeAbbreviationOrDecimal (p ++ q) (bytes p ++ bytes q) i =
      looksLikeAbbreviationOrDecimal p (bytes p) i := by
  simp only [looksLikeAbbreviationOrDecimal, endsInAbbreviation, endsInAddress]
  rw [byteBefore_append _ (by omega), runStart_append _ _ (by omega),
    runStart_append _ _ (by omega), List.getElem?_append_left (by omega),
    slice_append _ (by omega), slice_append _ (by omega), List.length_append,
    Nat.min_eq_left (by omega), Nat.min_eq_left (by omega)]

theorem endsSentence_append (c : Char) {bs : List UInt8} (bs' : List UInt8)
    (h : i + 1 < bs.length) : endsSentence c (bs ++ bs') i = endsSentence c bs i := by
  simp only [endsSentence, prevIsSentenceLetter]
  rw [List.getElem?_append_left (by omega), byteBefore_append _ (by omega)]

variable {w : Str} (s : Str) (hw : ∀ b ∈ bytes w, isAsciiWhitespace b = true) (i)

include hw

/-- Right after white space is as good as the front of the buffer. -/
theorem startsToken_shift (r : Nat) :
    (0 < (bytes w).length + r ∧
        ¬ (byteBefore (bytes w ++ bytes s) ((bytes w).length + r)).any isAsciiWhitespace = true) ↔
      (0 < r ∧ ¬ (byteBefore (bytes s) r).any isAsciiWhitespace = true) := by
  cases r with
  | zero =>
      cases hl : (bytes w).length with
      | zero => simp
      | succ n =>
          have hlt : n < (bytes w).length := by omega
          simp only [Nat.add_zero, byteBefore]
          rw [List.getElem?_append_left hlt, List.getElem?_eq_getElem hlt, Option.any_some,
            hw _ (List.getElem_mem hlt)]
          simp
  | succ r =>
      rw [← Nat.add_assoc]
      simp only [byteBefore]
      rw [List.getElem?_append_right (by omega),
        show (bytes w).length + r - (bytes w).length = r by omega]
      simp

theorem looksLikeOrderedListMarker_shift :
    looksLikeOrderedListMarker (bytes w ++ bytes s) ((bytes w).length + i) =
      looksLikeOrderedListMarker (bytes s) i := by
  have hdigit : ∀ b ∈ bytes w, isAsciiDigit b = false := fun b hb => not_digit_of_white (hw b hb)
  simp only [looksLikeOrderedListMarker]
  rw [runStart_shift hdigit, getElem?_shift, Nat.add_sub_add_left]
  simp only [Nat.add_left_cancel_iff, startsToken_shift s hw]

theorem looksLikeAbbreviationOrDecimal_shift (h : i < (bytes s).length) :
    looksLikeAbbreviationOrDecimal (w ++ s) (bytes w ++ bytes s) ((bytes w).length + i) =
      looksLikeAbbreviationOrDecimal s (bytes s) i := by
  have hdigit : ∀ b ∈ bytes w, isAsciiDigit b = false := fun b hb => not_digit_of_white (hw b hb)
  have halpha : ∀ b ∈ bytes w, isAsciiAlphabetic b = false :=
    fun b hb => not_alphabetic_of_white (hw b hb)
  have hword : ∀ b ∈ bytes w, (!isAsciiWhitespace b) = false := fun b hb => by simp [hw b hb]
  simp only [looksLikeAbbreviationOrDecimal, endsInAbbreviation, endsInAddress]
  rw [byteBefore_shift hdigit, byteBefore_shift halpha, runStart_shift halpha,
    runStart_shift hword, getElem?_shift, slice_shift, Nat.add_sub_add_left, List.length_append,
    Nat.min_eq_left (by omega), Nat.min_eq_left (by omega),
    show (bytes w).length + i + 1 = (bytes w).length + (i + 1) by omega, slice_shift]

theorem endsSentence_shift (c : Char) :
    endsSentence c (bytes w ++ bytes s) ((bytes w).length + i) = endsSentence c (bytes s) i := by
  have halpha : ∀ b ∈ bytes w, isAsciiAlphabetic b = false :=
    fun b hb => not_alphabetic_of_white (hw b hb)
  simp only [endsSentence, prevIsSentenceLetter]
  rw [getElem?_shift, byteBefore_shift halpha]

end Tests

/-- The tests at a dot slice at cuts only. -/
theorem looksLikeAbbreviationOrDecimal_isSome {s : Str} {i : Nat} {b : UInt8}
    (hi : (bytes s)[i]? = some b) (hb : b.toNat < 128) :
    ∃ r, looksLikeAbbreviationOrDecimal s (bytes s) i = some r := by
  have hlt : i < (bytes s).length := (List.getElem?_eq_some_iff.mp hi).1
  obtain ⟨p, q, hs, hp⟩ := split_of_ascii hi hb
  have habbrev : ∃ r, endsInAbbreviation s (bytes s) i = some r := by
    obtain ⟨u, v, hu, hlen⟩ :=
      split_runStart (p := isAsciiAlphabetic) hi hb (.inl ascii_of_isAsciiAlphabetic)
    have hle := runStart_le isAsciiAlphabetic (bytes s) i
    obtain ⟨m, hm⟩ := slice_isSome hu hs (by omega)
    rw [hlen, hp] at hm
    simp only [endsInAbbreviation, hm]
    split_ifs <;> simp
  have haddress : ∃ r, endsInAddress s (bytes s) i = some r := by
    have hnotWhite : ∀ x : UInt8, (!isAsciiWhitespace x) = false → x.toNat < 128 :=
      fun x hx => ascii_of_isAsciiWhitespace (by simpa using hx)
    obtain ⟨u, v, hu, hlen⟩ := split_runStart hi hb (.inr hnotWhite)
    obtain ⟨p', q', hs', hp'⟩ := split_after_ascii hi hb
    have hle := runStart_le (fun b => !isAsciiWhitespace b) (bytes s) i
    obtain ⟨m, hm⟩ := slice_isSome hu hs' (by omega)
    rw [hlen, hp'] at hm
    simp only [endsInAddress]
    rw [Nat.min_eq_left (by omega), hm]
    simp
  obtain ⟨r, hr⟩ := habbrev
  obtain ⟨r', hr'⟩ := haddress
  simp only [looksLikeAbbreviationOrDecimal, hr, hr', Option.bind_eq_bind, Option.bind_some]
  split_ifs <;> simp

/-! ## One turn -/

/-- The state after a byte that is no sentence end. -/
def nextState (st : ScanState) (b : UInt8) : ScanState :=
  if charOf b = '\x60' then { st with inCodeSpan := !st.inCodeSpan }
  else if st.inCodeSpan then st
  else
    match charOf b with
    | '(' => { st with paren := st.paren + 1 }
    | ')' => { st with paren := max (st.paren - 1) 0 }
    | '[' => { st with bracket := st.bracket + 1 }
    | ']' => { st with bracket := max (st.bracket - 1) 0 }
    | '\x7b' => { st with brace := st.brace + 1 }
    | '\x7d' => { st with brace := max (st.brace - 1) 0 }
    | _ => st

/-- A terminator at `i` either leaves the sentence open or ends it right after
itself, one more byte being there. -/
theorem terminatorTurn_cases {s : Str} {i : Nat} {b : UInt8} (hi : (bytes s)[i]? = some b)
    (hb : b.toNat < 128) (st : ScanState) (c : Char) :
    terminatorTurn s (bytes s) st i c = some (.next st) ∨
      (terminatorTurn s (bytes s) st i c = some (.found (i + 1)) ∧
        ∃ d, (bytes s)[i + 1]? = some d ∧ d.toNat < 128) := by
  obtain ⟨r, hr⟩ := looksLikeAbbreviationOrDecimal_isSome hi hb
  simp only [terminatorTurn, hr, Option.bind_eq_bind, Option.bind_some]
  split_ifs with h1 h2 h3 h4
  · exact .inl rfl
  · exact .inl rfl
  · exact .inl rfl
  · refine .inr ⟨rfl, ?_⟩
    simp only [endsSentence] at h4
    cases hd : (bytes s)[i + 1]? with
    | none => simp [hd] at h4
    | some d =>
        refine ⟨d, rfl, ?_⟩
        simp only [hd] at h4
        split at h4
        · rename_i hwhite
          exact ascii_of_isAsciiWhitespace hwhite
        · split at h4
          · rename_i hmark
            simp only [Bool.or_eq_true, decide_eq_true_eq] at hmark
            rcases hmark with ((rfl | rfl) | rfl) | rfl <;> decide
          · simp only [Bool.and_eq_true] at h4
            exact ascii_of_isAsciiAlphabetic d (by simp [isAsciiAlphabetic, h4.1.2])
  · exact .inl rfl

/-- A newline at `i` either goes on or ends the sentence right before itself,
when another newline follows and something visible stands before. -/
theorem paragraphTurn_cases {s : Str} {i : Nat} {b : UInt8} (hi : (bytes s)[i]? = some b)
    (hb : b.toNat < 128) (st : ScanState) :
    paragraphTurn s (bytes s) st i = some (.next st) ∨
      (paragraphTurn s (bytes s) st i = some (.found i) ∧ (bytes s)[i + 1]? = some 0x0a ∧
        ∀ p q, s = p ++ q → (bytes p).length = i → visible p ≠ []) := by
  obtain ⟨p, q, hs, hp⟩ := split_of_ascii hi hb
  have hcut : splitAt s i = some (p, charOf b :: q) := splitAt_eq_some.mpr ⟨hs, hp⟩
  simp only [paragraphTurn, hcut, Option.bind_eq_bind, Option.bind_some]
  split_ifs with h1 h2
  · refine .inr ⟨rfl, h1, ?_⟩
    intro p' q' hs' hp'
    obtain ⟨rfl, -⟩ := append_inj_bytes (hs'.symm.trans hs) (hp'.trans hp.symm)
    exact fun hv => h2.1 (trim_eq_nil.mpr hv)
  · exact .inl rfl
  · exact .inl rfl

/-- **What a turn can come to**: the next state, or an end right after a
terminator or right before a double newline. -/
theorem scanByte_cases {s : Str} {i : Nat} {b : UInt8} (hi : (bytes s)[i]? = some b)
    (st : ScanState) :
    scanByte s (bytes s) st i b = some (.next (nextState st b)) ∨
      (scanByte s (bytes s) st i b = some (.found (i + 1)) ∧ b.toNat < 128 ∧
        isWhitespace (charOf b) = false ∧ ∃ d, (bytes s)[i + 1]? = some d ∧ d.toNat < 128) ∨
      (scanByte s (bytes s) st i b = some (.found i) ∧ b = 0x0a ∧
        (bytes s)[i + 1]? = some 0x0a ∧
        ∀ p q, s = p ++ q → (bytes p).length = i → visible p ≠ []) := by
  have hnat := toNat_charOf b
  simp only [scanByte, nextState]
  by_cases hq : charOf b = '\x60'
  · simp [hq]
  · by_cases hspan : st.inCodeSpan = true
    · simp [hq, hspan]
    · simp only [if_neg hq, if_neg hspan]
      generalize charOf b = c at hnat ⊢
      split
      case h_7 | h_8 | h_9 =>
        have hb : b.toNat < 128 := by
          rw [← hnat]
          decide
        rcases terminatorTurn_cases hi hb st _ with h | ⟨h, hd⟩
        · exact .inl h
        · exact .inr (.inl ⟨h, hb, rfl, hd⟩)
      case h_10 =>
        have hb : b = 0x0a := UInt8.toNat_inj.mp hnat.symm
        rcases paragraphTurn_cases hi (by rw [hb]; decide) st with h | ⟨h, hd, hv⟩
        · exact .inl h
        · exact .inr (.inr ⟨h, hb, hd, hv⟩)
      case h_11 =>
        left
        split <;> simp_all
      all_goals exact .inl rfl

/-- A turn looks one byte past its index and no further. -/
theorem scanByte_append {p : Str} (q : Str) {i : Nat} (h : i + 1 < (bytes p).length)
    (st : ScanState) (b : UInt8) :
    scanByte (p ++ q) (bytes p ++ bytes q) st i b = scanByte p (bytes p) st i b := by
  have hterm : ∀ c, terminatorTurn (p ++ q) (bytes p ++ bytes q) st i c =
      terminatorTurn p (bytes p) st i c := by
    intro c
    simp only [terminatorTurn]
    rw [looksLikeOrderedListMarker_append _ h, looksLikeAbbreviationOrDecimal_append _ h,
      endsSentence_append _ _ h]
  have hpara : paragraphTurn (p ++ q) (bytes p ++ bytes q) st i = paragraphTurn p (bytes p) st i := by
    simp only [paragraphTurn]
    rw [List.getElem?_append_left h, splitAt_append_of_le _ (by omega)]
    cases splitAt p i <;> rfl
  simp only [scanByte, hterm, hpara]

/-- The last byte of the buffer ends nothing. -/
theorem scanByte_last {s : Str} {i : Nat} {b : UInt8} (hi : (bytes s)[i]? = some b)
    (hlast : (bytes s).length = i + 1) (st : ScanState) :
    scanByte s (bytes s) st i b = some (.next (nextState st b)) := by
  have hnone : (bytes s)[i + 1]? = none := List.getElem?_eq_none (by omega)
  rcases scanByte_cases hi st with h | ⟨-, -, -, d, hd, -⟩ | ⟨-, -, hd, -⟩
  · exact h
  · rw [hnone] at hd
    cases hd
  · rw [hnone] at hd
    cases hd

/-- Move an end by `n` bytes. -/
def Turn.shift (n : Nat) : Turn → Turn
  | .found e => .found (n + e)
  | .next st => .next st

/-- White space in front of the buffer only moves what a turn finds. -/
theorem scanByte_shift {w : Str} (hw : ∀ b ∈ bytes w, isAsciiWhitespace b = true) (s : Str)
    {i : Nat} (h : i < (bytes s).length) (st : ScanState) (b : UInt8) :
    scanByte (w ++ s) (bytes w ++ bytes s) st ((bytes w).length + i) b =
      (scanByte s (bytes s) st i b).map (Turn.shift (bytes w).length) := by
  have hterm : ∀ c, terminatorTurn (w ++ s) (bytes w ++ bytes s) st ((bytes w).length + i) c =
      (terminatorTurn s (bytes s) st i c).map (Turn.shift (bytes w).length) := by
    intro c
    simp only [terminatorTurn]
    rw [looksLikeOrderedListMarker_shift i s hw, looksLikeAbbreviationOrDecimal_shift i s hw h,
      endsSentence_shift i s hw]
    cases looksLikeAbbreviationOrDecimal s (bytes s) i with
    | none =>
        simp only [Option.bind_eq_bind, Option.bind_none]
        split_ifs <;> rfl
    | some r =>
        simp only [Option.bind_eq_bind, Option.bind_some]
        split_ifs <;> rfl
  have hpara : paragraphTurn (w ++ s) (bytes w ++ bytes s) st ((bytes w).length + i) =
      (paragraphTurn s (bytes s) st i).map (Turn.shift (bytes w).length) := by
    simp only [paragraphTurn]
    rw [getElem?_shift, splitAt_append_add]
    cases splitAt s i with
    | none =>
        simp only [Option.map_none, Option.bind_eq_bind, Option.bind_none]
        split_ifs <;> rfl
    | some r =>
        -- the part before the newline starts with `w`, which `trim` takes off
        simp only [Option.map_some, Option.bind_eq_bind, Option.bind_some,
          trim_append_left (visible_eq_nil_of_ascii hw)]
        split_ifs <;> rfl
  simp only [scanByte, hterm, hpara]
  split_ifs
  · rfl
  · rfl
  · split <;> rfl

/-- White space leaves the scan in its initial state. -/
theorem nextState_white {b : UInt8} (h : isAsciiWhitespace b = true) : nextState {} b = {} := by
  simp only [isAsciiWhitespace, Bool.or_eq_true, decide_eq_true_eq] at h
  rcases h with (((rfl | rfl) | rfl) | rfl) | rfl <;> decide

end Monoloop.Interpreter
