import Mathlib.Data.BitVec

/-!
# Saturating machine arithmetic

Byte counts are natural numbers below the largest `usize`; `saturating_add` stops
there and `saturating_sub` at zero, which is subtraction of naturals.
-/

namespace Monoloop

/-- The largest `usize`. -/
def usizeMax : Nat := 2 ^ 64 - 1

/-- `usize::saturating_add`. -/
def satAdd (a b : Nat) : Nat := min (a + b) usizeMax

theorem satAdd_eq {a b : Nat} (h : a + b ≤ usizeMax) : satAdd a b = a + b := min_eq_left h

theorem satAdd_le (a b : Nat) : satAdd a b ≤ a + b := min_le_left _ _

theorem satAdd_le_max (a b : Nat) : satAdd a b ≤ usizeMax := min_le_right _ _

end Monoloop
