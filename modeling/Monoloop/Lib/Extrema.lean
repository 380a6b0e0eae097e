import Mathlib.Data.List.Induction
import Mathlib.Order.Bounds.Basic
import Mathlib.Order.Lattice.Nat

/-!
# Running extrema

A loop keeps the least and the greatest of the values it has seen, none before
the first. The result is the least or greatest element of the set of values
(`leastOf_foldl`, `greatestOf_foldl`), so it depends on that set only.

The second part compares two windows of a sorted list: they have the same
members exactly when they agree at both ends.
-/

namespace Extrema

/-- The minimum so far, with one more value if there is one. -/
def minWith (acc x : Option Nat) : Option Nat :=
  match x with
  | none => acc
  | some n => some (acc.elim n fun m => min m n)

def maxWith (acc x : Option Nat) : Option Nat :=
  match x with
  | none => acc
  | some n => some (acc.elim n fun m => max m n)

/-- The least element of a set, if it has one at all. -/
def LeastOf (x : Option Nat) (s : Set Nat) : Prop :=
  match x with
  | none => s = ∅
  | some n => IsLeast s n

def GreatestOf (x : Option Nat) (s : Set Nat) : Prop :=
  match x with
  | none => s = ∅
  | some n => IsGreatest s n

/-- The values that are there. -/
def present (xs : List (Option Nat)) : Set Nat := {n | some n ∈ xs}

theorem present_concat_none (xs : List (Option Nat)) : present (xs ++ [none]) = present xs := by
  ext n
  simp [present]

theorem present_concat_some (xs : List (Option Nat)) (n : Nat) :
    present (xs ++ [some n]) = insert n (present xs) := by
  ext m
  simp [present, or_comm]

theorem leastOf_foldl (xs : List (Option Nat)) : LeastOf (xs.foldl minWith none) (present xs) := by
  induction xs using List.reverseRecOn with
  | nil => simp [LeastOf, present]
  | append_singleton xs x ih =>
      rw [List.foldl_append, List.foldl_cons, List.foldl_nil]
      cases x with
      | none =>
          rw [present_concat_none]
          exact ih
      | some n =>
          rw [present_concat_some]
          cases hacc : xs.foldl minWith none with
          | none =>
              rw [hacc] at ih
              rw [show present xs = ∅ from ih]
              simp [minWith, LeastOf, IsLeast]
          | some m =>
              rw [hacc] at ih
              replace ih : IsLeast (present xs) m := ih
              show IsLeast (insert n (present xs)) (min m n)
              rw [min_comm]
              exact ih.insert n

theorem greatestOf_foldl (xs : List (Option Nat)) :
    GreatestOf (xs.foldl maxWith none) (present xs) := by
  induction xs using List.reverseRecOn with
  | nil => simp [GreatestOf, present]
  | append_singleton xs x ih =>
      rw [List.foldl_append, List.foldl_cons, List.foldl_nil]
      cases x with
      | none =>
          rw [present_concat_none]
          exact ih
      | some n =>
          rw [present_concat_some]
          cases hacc : xs.foldl maxWith none with
          | none =>
              rw [hacc] at ih
              rw [show present xs = ∅ from ih]
              simp [maxWith, GreatestOf, IsGreatest]
          | some m =>
              rw [hacc] at ih
              replace ih : IsGreatest (present xs) m := ih
              show IsGreatest (insert n (present xs)) (max m n)
              rw [max_comm]
              exact ih.insert n

/-- A value seen twice changes nothing. -/
theorem minWith_idem (acc x : Option Nat) : minWith (minWith acc x) x = minWith acc x := by
  cases x with
  | none => rfl
  | some n => cases acc <;> simp [minWith]

theorem maxWith_idem (acc x : Option Nat) : maxWith (maxWith acc x) x = maxWith acc x := by
  cases x with
  | none => rfl
  | some n => cases acc <;> simp [maxWith]

/-! ## Windows of a sorted list -/

section Windows

variable {tags : List Nat} {w c : Nat}

/-- The members of a window, by their places. -/
theorem mem_window {x : Nat} :
    x ∈ (tags.drop w).take c ↔ ∃ j, w ≤ j ∧ j < w + c ∧ tags[j]? = some x := by
  rw [List.mem_iff_getElem?]
  constructor
  · rintro ⟨i, hi⟩
    rw [List.getElem?_take] at hi
    split at hi
    · rw [List.getElem?_drop] at hi
      exact ⟨w + i, by omega, by omega, hi⟩
    · cases hi
  · rintro ⟨j, hwj, hjc, hj⟩
    refine ⟨j - w, ?_⟩
    rw [List.getElem?_take, if_pos (by omega), List.getElem?_drop, show w + (j - w) = j by omega]
    exact hj

theorem getElem?_mono (h : tags.Pairwise (· ≤ ·)) {i j x y : Nat} (hij : i ≤ j)
    (hi : tags[i]? = some x) (hj : tags[j]? = some y) : x ≤ y := by
  obtain ⟨hi', rfl⟩ := List.getElem?_eq_some_iff.mp hi
  obtain ⟨hj', rfl⟩ := List.getElem?_eq_some_iff.mp hj
  rcases Nat.lt_or_ge i j with hlt | hge
  · exact List.pairwise_iff_getElem.mp h i j hi' hj' hlt
  · obtain rfl : i = j := by omega
    exact Nat.le_refl _

/-- Windows with the same ends have the same members. -/
theorem mem_window_of_ends (h : tags.Pairwise (· ≤ ·)) (hlen : w + c ≤ tags.length)
    (hfirst : tags[0]? = tags[w]?) (hlast : tags[c - 1]? = tags[w + c - 1]?) (x : Nat) :
    x ∈ (tags.drop 0).take c ↔ x ∈ (tags.drop w).take c := by
  rw [mem_window, mem_window]
  constructor
  · rintro ⟨j, -, hj, hx⟩
    rcases Nat.lt_or_ge j w with hjw | hwj
    · -- between the two first places, so it is their value
      refine ⟨w, Nat.le_refl _, by omega, ?_⟩
      obtain ⟨y, hy⟩ : ∃ y, tags[w]? = some y :=
        ⟨_, List.getElem?_eq_getElem (by omega)⟩
      have hle := getElem?_mono h (Nat.le_of_lt hjw) hx hy
      have hge := getElem?_mono h (Nat.zero_le j) (hfirst.trans hy) hx
      rw [hy, show y = x by omega]
    · exact ⟨j, hwj, by omega, hx⟩
  · rintro ⟨j, hwj, hj, hx⟩
    rcases Nat.lt_or_ge j c with hjc | hcj
    · exact ⟨j, Nat.zero_le _, by omega, hx⟩
    · refine ⟨c - 1, Nat.zero_le _, by omega, ?_⟩
      obtain ⟨y, hy⟩ : ∃ y, tags[w + c - 1]? = some y :=
        ⟨_, List.getElem?_eq_getElem (by omega)⟩
      have hle := getElem?_mono h (show j ≤ w + c - 1 by omega) hx hy
      have hge := getElem?_mono h (show c - 1 ≤ j by omega) (hlast.trans hy) hx
      rw [hlast, hy, show y = x by omega]

/-- The least member of a window of a sorted list is its first. -/
theorem isLeast_window (h : tags.Pairwise (· ≤ ·)) (hlen : w + c ≤ tags.length) (hc : 0 < c)
    {x : Nat} (hx : IsLeast {n | n ∈ (tags.drop w).take c} x) : tags[w]? = some x := by
  obtain ⟨y, hy⟩ : ∃ y, tags[w]? = some y := ⟨_, List.getElem?_eq_getElem (by omega)⟩
  obtain ⟨j, hwj, -, hj⟩ := mem_window.mp hx.1
  have hle : x ≤ y := hx.2 (mem_window.mpr ⟨w, Nat.le_refl _, by omega, hy⟩)
  have hge := getElem?_mono h hwj hy hj
  rw [hy, show y = x by omega]

theorem isGreatest_window (h : tags.Pairwise (· ≤ ·)) (hlen : w + c ≤ tags.length) (hc : 0 < c)
    {x : Nat} (hx : IsGreatest {n | n ∈ (tags.drop w).take c} x) :
    tags[w + c - 1]? = some x := by
  obtain ⟨y, hy⟩ : ∃ y, tags[w + c - 1]? = some y := ⟨_, List.getElem?_eq_getElem (by omega)⟩
  obtain ⟨j, -, hj, hjx⟩ := mem_window.mp hx.1
  have hge : y ≤ x := hx.2 (mem_window.mpr ⟨w + c - 1, by omega, by omega, hy⟩)
  have hle := getElem?_mono h (show j ≤ w + c - 1 by omega) hjx hy
  rw [hy, show y = x by omega]

end Windows

end Extrema
