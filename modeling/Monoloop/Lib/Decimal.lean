import Mathlib.Data.List.Induction
import Mathlib.Tactic.Ring

/-!
# Decimal texts

Integers as the standard library reads them, digits of a fixed width, and texts cut at a
character.
-/

namespace Decimal

def i64Min : Int := -9223372036854775808

def i64Max : Int := 9223372036854775807

/-- The integer, when it fits 64 bits with a sign. -/
def ofI64 (n : Int) : Option Int := if i64Min ≤ n ∧ n ≤ i64Max then some n else none

def digitValue (c : Char) : Nat := c.toNat - '0'.toNat

def value (ds : List Char) : Nat := ds.foldl (fun n c => 10 * n + digitValue c) 0

/-- Whether there is a minus sign in front, and what follows the sign. -/
def cutSign (s : List Char) : Bool × List Char :=
  if s.head? = some '-' then (true, s.tail)
  else if s.head? = some '+' then (false, s.tail)
  else (false, s)

/-- `str::parse::<i64>`: digits after at most one sign. -/
def parseI64 (s : List Char) : Option Int :=
  let (negative, ds) := cutSign s
  if ds ≠ [] ∧ ds.all Char.isDigit then
    ofI64 (if negative then -(value ds : Int) else value ds)
  else none

/-- The last `width` digits of a number. -/
def digits : (width n : Nat) → List Char
  | 0, _ => []
  | width + 1, n => digits width (n / 10) ++ [Nat.digitChar (n % 10)]

/-! ## Reading digits back -/

theorem isDigit_digitChar : ∀ n < 10, (Nat.digitChar n).isDigit = true := by decide

theorem digitValue_digitChar : ∀ n < 10, digitValue (Nat.digitChar n) = n := by decide

@[simp] theorem digits_length (width n : Nat) : (digits width n).length = width := by
  induction width generalizing n with
  | zero => rfl
  | succ width ih => simp [digits, ih]

theorem isDigit_of_mem_digits {width n : Nat} {c : Char} (h : c ∈ digits width n) :
    c.isDigit = true := by
  induction width generalizing n with
  | zero => cases h
  | succ width ih =>
      rcases List.mem_append.mp h with h | h
      · exact ih h
      · rw [List.mem_singleton.mp h]
        exact isDigit_digitChar _ (Nat.mod_lt _ (by omega))

theorem value_concat (ds : List Char) (c : Char) :
    value (ds ++ [c]) = 10 * value ds + digitValue c := by
  simp [value]

theorem value_digits {width n : Nat} (h : n < 10 ^ width) : value (digits width n) = n := by
  induction width generalizing n with
  | zero =>
      have hn : n = 0 := by
        rw [pow_zero] at h
        omega
      rw [hn]
      rfl
  | succ width ih =>
      have hdiv : n / 10 < 10 ^ width := by
        rw [pow_succ] at h
        omega
      rw [digits, value_concat, ih hdiv, digitValue_digitChar _ (Nat.mod_lt _ (by omega))]
      omega

theorem digitValue_le {c : Char} (h : c.isDigit = true) : digitValue c ≤ 9 := by
  simp only [Char.isDigit, Bool.and_eq_true, decide_eq_true_eq] at h
  have hle : c.toNat ≤ 57 := h.2
  have hzero : '0'.toNat = 48 := rfl
  unfold digitValue
  omega

theorem value_lt {ds : List Char} (h : ∀ c ∈ ds, c.isDigit = true) :
    value ds < 10 ^ ds.length := by
  induction ds using List.reverseRecOn with
  | nil => simp [value]
  | append_singleton ds c ih =>
      have hrest := ih fun c hc => h c (by simp [hc])
      have hvalue := digitValue_le (h c (by simp))
      rw [value_concat, List.length_append, List.length_singleton, pow_succ]
      omega

theorem ofI64_eq_some {n m : Int} : ofI64 n = some m ↔ n = m ∧ i64Min ≤ n ∧ n ≤ i64Max := by
  unfold ofI64
  split_ifs with h
  · simp [h]
  · simp [h]

theorem cutSign_of_digits {ds : List Char} (h : ∀ c ∈ ds, c.isDigit = true) :
    cutSign ds = (false, ds) := by
  have hhead : ∀ c, ds.head? = some c → c.isDigit = true :=
    fun c hc => h c (List.mem_of_mem_head? hc)
  unfold cutSign
  rw [if_neg, if_neg]
  · intro hplus
    exact absurd (hhead '+' hplus) (by decide)
  · intro hminus
    exact absurd (hhead '-' hminus) (by decide)

theorem parseI64_of_digits {ds : List Char} (hne : ds ≠ []) (h : ∀ c ∈ ds, c.isDigit = true) :
    parseI64 ds = ofI64 (value ds) := by
  unfold parseI64
  rw [cutSign_of_digits h]
  exact if_pos ⟨hne, List.all_eq_true.mpr h⟩

theorem parseI64_digits {width n : Nat} (hwidth : 0 < width) (hn : n < 10 ^ width)
    (hfits : (n : Int) ≤ i64Max) : parseI64 (digits width n) = some (n : Int) := by
  rw [parseI64_of_digits (List.ne_nil_of_length_pos (by simpa using hwidth))
    (fun c => isDigit_of_mem_digits), value_digits hn, ofI64, if_pos]
  unfold i64Min
  omega

theorem parseI64_eq_some {s : List Char} {n : Int} (h : parseI64 s = some n) :
    (n = if (cutSign s).1 then -(value (cutSign s).2 : Int) else value (cutSign s).2) ∧
      i64Min ≤ n ∧ n ≤ i64Max := by
  unfold parseI64 at h
  dsimp only at h
  split at h
  · obtain ⟨rfl, hfits⟩ := ofI64_eq_some.mp h
    exact ⟨rfl, hfits⟩
  · cases h

/-- Without a minus sign the number is not negative. -/
theorem parseI64_nonneg {s : List Char} {n : Int} (hs : '-' ∉ s) (h : parseI64 s = some n) :
    0 ≤ n := by
  have hsign : (cutSign s).1 = false := by
    have hhead : s.head? ≠ some '-' := fun hhead => hs (List.mem_of_mem_head? hhead)
    unfold cutSign
    rw [if_neg hhead]
    split_ifs <;> rfl
  rw [(parseI64_eq_some h).1, hsign]
  exact Int.natCast_nonneg _

/-! ## Cutting at a character -/

/-- `split_once` -/
def splitOnce (sep : Char) : List Char → Option (List Char × List Char)
  | [] => none
  | c :: rest =>
      if c = sep then some ([], rest) else (splitOnce sep rest).map fun p => (c :: p.1, p.2)

/-- `split` -/
def pieces (sep : Char) : List Char → List (List Char)
  | [] => [[]]
  | c :: rest =>
      if c = sep then [] :: pieces sep rest
      else
        match pieces sep rest with
        | [] => [[c]]
        | p :: ps => (c :: p) :: ps

variable {sep : Char} {s rest : List Char}

theorem splitOnce_append (h : sep ∉ s) : splitOnce sep (s ++ sep :: rest) = some (s, rest) := by
  induction s with
  | nil => simp [splitOnce]
  | cons c s ih =>
      obtain ⟨hc, hs⟩ := List.ne_and_not_mem_of_not_mem_cons h
      rw [List.cons_append, splitOnce, if_neg hc.symm, ih hs]
      rfl

theorem splitOnce_eq_none (h : sep ∉ s) : splitOnce sep s = none := by
  induction s with
  | nil => rfl
  | cons c s ih =>
      obtain ⟨hc, hs⟩ := List.ne_and_not_mem_of_not_mem_cons h
      rw [splitOnce, if_neg hc.symm, ih hs]
      rfl

theorem pieces_of_not_mem (h : sep ∉ s) : pieces sep s = [s] := by
  induction s with
  | nil => rfl
  | cons c s ih =>
      obtain ⟨hc, hs⟩ := List.ne_and_not_mem_of_not_mem_cons h
      rw [pieces, if_neg hc.symm, ih hs]

theorem pieces_append (h : sep ∉ s) : pieces sep (s ++ sep :: rest) = s :: pieces sep rest := by
  induction s with
  | nil => simp [pieces]
  | cons c s ih =>
      obtain ⟨hc, hs⟩ := List.ne_and_not_mem_of_not_mem_cons h
      rw [List.cons_append, pieces, if_neg hc.symm, ih hs]

theorem not_mem_of_mem_pieces {p : List Char} (h : p ∈ pieces sep s) : sep ∉ p := by
  induction s generalizing p with
  | nil => simp_all [pieces]
  | cons c s ih =>
      rw [pieces] at h
      split at h
      · rcases List.mem_cons.mp h with rfl | h
        · exact List.not_mem_nil
        · exact ih h
      · rename_i hc
        split at h
        · rw [List.mem_singleton.mp h]
          simpa using Ne.symm hc
        · rename_i q qs hq
          rcases List.mem_cons.mp h with rfl | h
          · rw [List.mem_cons, not_or]
            exact ⟨Ne.symm hc, ih (hq ▸ List.mem_cons_self)⟩
          · exact ih (hq ▸ List.mem_cons_of_mem _ h)

end Decimal
