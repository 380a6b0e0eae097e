import Mathlib.Tactic.IntervalCases

/-!
# The Gregorian calendar

Dates of the proleptic Gregorian calendar from the year 0 on, and `dayNumber`, the
count of the days before a date: the lengths of the years and months before it, and the
days of its own month.

`dayNumber_next` is what makes it a count: from one day to the next it grows by one. The
closed forms of the two sums are what a computation without a loop is compared with.
-/

namespace Calendar

structure Date where
  year : Nat
  month : Nat
  day : Nat
deriving DecidableEq, Repr

/-- Every fourth year, but of the hundreds only every fourth. -/
def Leap (year : Nat) : Prop := year % 4 = 0 ∧ (year % 100 ≠ 0 ∨ year % 400 = 0)

instance (year : Nat) : Decidable (Leap year) := inferInstanceAs (Decidable (_ ∧ _))

def yearLength (year : Nat) : Nat := if Leap year then 366 else 365

def monthLength (year month : Nat) : Nat :=
  if month = 2 then if Leap year then 29 else 28
  else if month = 4 ∨ month = 6 ∨ month = 9 ∨ month = 11 then 30
  else 31

structure Date.Valid (d : Date) : Prop where
  month : 1 ≤ d.month ∧ d.month ≤ 12
  day : 1 ≤ d.day ∧ d.day ≤ monthLength d.year d.month

def Date.next (d : Date) : Date :=
  if d.day < monthLength d.year d.month then { d with day := d.day + 1 }
  else if d.month < 12 then ⟨d.year, d.month + 1, 1⟩
  else ⟨d.year + 1, 1, 1⟩

/-- The days of the first `n` years. -/
def daysOfYears : Nat → Nat
  | 0 => 0
  | n + 1 => daysOfYears n + yearLength n

/-- The days of the first `n` months of a year. -/
def daysOfMonths (year : Nat) : Nat → Nat
  | 0 => 0
  | n + 1 => daysOfMonths year n + monthLength year (n + 1)

/-- The days before a date, from the first of January of the year 0 on. -/
def dayNumber (d : Date) : Nat :=
  daysOfYears d.year + daysOfMonths d.year (d.month - 1) + (d.day - 1)

/-! ## The count, day by day -/

theorem daysOfMonths_twelve (year : Nat) : daysOfMonths year 12 = yearLength year := by
  by_cases h : Leap year <;> simp [daysOfMonths, monthLength, yearLength, h]

theorem monthLength_pos (year month : Nat) : 0 < monthLength year month := by
  unfold monthLength
  split_ifs <;> omega

theorem monthLength_le (year month : Nat) : monthLength year month ≤ 31 := by
  unfold monthLength
  split_ifs <;> omega

theorem daysOfMonths_le (year n : Nat) : daysOfMonths year n ≤ 31 * n := by
  induction n with
  | zero => exact Nat.le_refl 0
  | succ n ih =>
      have hlast := monthLength_le year (n + 1)
      rw [daysOfMonths]
      omega

theorem next_valid {d : Date} (h : d.Valid) : d.next.Valid := by
  obtain ⟨hmonth, hday⟩ := h
  unfold Date.next
  split_ifs with hin hyear
  · exact ⟨hmonth, Nat.succ_pos _, hin⟩
  · exact ⟨by simp only; omega, le_rfl, monthLength_pos _ _⟩
  · exact ⟨by simp, le_rfl, monthLength_pos _ _⟩

/-- **The next day has the next number.** -/
theorem dayNumber_next {d : Date} (h : d.Valid) : dayNumber d.next = dayNumber d + 1 := by
  obtain ⟨⟨hlow, hhigh⟩, hday, hlast⟩ := h
  unfold Date.next
  split_ifs with hin hyear
  · simp only [dayNumber]
    omega
  · obtain ⟨n, hn⟩ : ∃ n, d.month = n + 1 := ⟨d.month - 1, by omega⟩
    simp only [dayNumber, hn, Nat.add_sub_cancel, daysOfMonths]
    rw [hn] at hin hlast
    omega
  · have hmonth : d.month = 12 := by omega
    have htwelve : daysOfMonths d.year 11 + monthLength d.year 12 = yearLength d.year :=
      daysOfMonths_twelve d.year
    have hfirst : daysOfMonths (d.year + 1) 0 = 0 := rfl
    simp only [dayNumber, hmonth, daysOfYears, Nat.sub_self, hfirst, Nat.reduceSub]
    rw [hmonth] at hin hlast
    omega

/-- A date and the days after it. -/
theorem dayNumber_iterate {d : Date} (h : d.Valid) (n : Nat) :
    (Date.next^[n] d).Valid ∧ dayNumber (Date.next^[n] d) = dayNumber d + n := by
  induction n with
  | zero => exact ⟨h, rfl⟩
  | succ n ih =>
      rw [Function.iterate_succ_apply']
      refine ⟨next_valid ih.1, ?_⟩
      rw [dayNumber_next ih.1, ih.2]
      rfl

theorem daysOfYears_le {m n : Nat} (h : m ≤ n) : daysOfYears m ≤ daysOfYears n := by
  induction h with
  | refl => exact Nat.le_refl _
  | step _ ih => exact Nat.le_add_right_of_le ih

/-! ## Closed forms -/

/-- The leap years before a year are the multiples of four without those of a hundred,
with those of four hundred. -/
theorem daysOfYears_eq (n : Nat) :
    daysOfYears n + (n + 99) / 100 = 365 * n + (n + 3) / 4 + (n + 399) / 400 := by
  induction n with
  | zero => rfl
  | succ n ih =>
      rw [daysOfYears, yearLength]
      split_ifs with h <;> simp only [Leap] at h <;> omega

/-- From March on the months have 30 or 31 days by turns of five. -/
theorem daysOfMonths_eq (year : Nat) {month : Nat} (h : 3 ≤ month ∧ month ≤ 12) :
    daysOfMonths year (month - 1) =
      (153 * (month - 3) + 2) / 5 + (if Leap year then 60 else 59) := by
  obtain ⟨hlow, hhigh⟩ := h
  by_cases hleap : Leap year <;> interval_cases month <;>
    simp [daysOfMonths, monthLength, hleap]

end Calendar
