import Mathlib.Data.Rat.Floor
import Monoloop.Lib.Calendar
import Monoloop.Lib.Decimal
import Monoloop.Lib.Utf8

/-!
# Timestamps of the source

`parse_rfc3339_ms` of `claude_stream.rs` reads a time like `2026-08-16T09:12:22.325Z` and
computes its Unix time in milliseconds. The days come from `days_from_civil`, which counts
eras of 400 years that begin in March.

Signed arithmetic of the source that may overflow is written out operation by operation;
the sum of the milliseconds uses `checked_mul` and `checked_add`, `days_from_civil` does
not.
-/

namespace Monoloop.Interpreter

open Calendar (Date dayNumber Leap)
open Decimal (i64Min i64Max ofI64 parseI64 splitOnce pieces digits)

/-! ## Days of a date -/

/-- An `i64` operation left the range: a panic, or a wrong value where overflow wraps. -/
inductive Overflow where
  | overflow
deriving DecidableEq, Repr

/-- The result of an `i64` operation. -/
def i64 (n : Int) : Except Overflow Int :=
  match ofI64 n with
  | some n => .ok n
  | none => .error .overflow

def daysFromCivil (y m d : Int) : Except Overflow (Option Int) :=
  if ¬ (1 ≤ m ∧ m ≤ 12) ∨ ¬ (1 ≤ d ∧ d ≤ 31) then .ok none
  else do
    let y ← (if m ≤ 2 then i64 (y - 1) else .ok y)
    let dividend ← (if 0 ≤ y then .ok y else i64 (y - 399))
    let era := dividend.tdiv 400
    let years ← i64 (era * 400)
    let yoe ← i64 (y - years)
    let mp ← (if 2 < m then i64 (m - 3) else i64 (m + 9))
    let product ← i64 (153 * mp)
    let fifths ← i64 (product + 2)
    let sum ← i64 (fifths.tdiv 5 + d)
    let doy ← i64 (sum - 1)
    let common ← i64 (yoe * 365)
    let fourth ← i64 (common + yoe.tdiv 4)
    let century ← i64 (fourth - yoe.tdiv 100)
    let doe ← i64 (century + doy)
    let eras ← i64 (era * 146097)
    let days ← i64 (eras + doe)
    let days ← i64 (days - 719468)
    return some days

/-! ## Reading -/

/-- What the text says, before anything is computed. -/
structure TimestampFields where
  year : Int
  month : Int
  day : Int
  hour : Int
  minute : Int
  second : Int
  ms : Int
deriving DecidableEq, Repr

/-- The first three digits of the fraction, `{digits:0<3}`. -/
def padded (fraction : List Char) : List Char :=
  fraction.take 3 ++ List.replicate (3 - (fraction.take 3).length) '0'

def readMs (fraction : Option (List Char)) : Int :=
  match fraction with
  | some f => (parseI64 (padded f)).getD 0
  | none => 0

def readFields (s : List Char) : Option TimestampFields :=
  let s := Utf8.trim s
  if s.getLast? ≠ some 'Z' ∨ (Utf8.bytes s).length < 20 then none
  else do
    let (date, time) ← splitOnce 'T' s.dropLast
    let d := pieces '-' date
    let y ← d[0]?.bind parseI64
    let mo ← d[1]?.bind parseI64
    let day ← d[2]?.bind parseI64
    let (hms, fraction) :=
      match splitOnce '.' time with
      | some (a, b) => (a, some b)
      | none => (time, none)
    let t := pieces ':' hms
    let h ← t[0]?.bind parseI64
    let mi ← t[1]?.bind parseI64
    let sec ← t[2]?.bind parseI64
    return ⟨y, mo, day, h, mi, sec, readMs fraction⟩

/-- `checked_mul` and `checked_add` from the days on. -/
def totalMs (days : Int) (f : TimestampFields) : Option Nat := do
  let total ← ofI64 (days * 86400000)
  let total ← ofI64 (total + (← ofI64 (f.hour * 3600000)))
  let total ← ofI64 (total + (← ofI64 (f.minute * 60000)))
  let total ← ofI64 (total + (← ofI64 (f.second * 1000)))
  let total ← ofI64 (total + f.ms)
  if total < 0 then none else some total.toNat

def parseRfc3339Ms (s : String) : Except Overflow (Option Nat) :=
  match readFields s.toList with
  | none => .ok none
  | some f => do
      match ← daysFromCivil f.year f.month f.day with
      | none => return none
      | some days => return totalMs days f

/-! ## The days are the calendar's -/

theorem i64_ok {n : Int} (h : i64Min ≤ n ∧ n ≤ i64Max) : i64 n = .ok n := by
  rw [i64, ofI64, if_pos h]

theorem i64_bind {α : Type} {n : Int} {f : Int → Except Overflow α} (h : i64Min ≤ n ∧ n ≤ i64Max) :
    (i64 n >>= f) = f n := by
  rw [i64_ok h]
  rfl

theorem i64_overflow {α : Type} {n : Int} {f : Int → Except Overflow α} (h : i64Max < n) :
    (i64 n >>= f) = .error .overflow := by
  rw [i64, ofI64, if_neg (by omega)]
  rfl

theorem ok_bind {α β : Type} (a : α) (f : α → Except Overflow β) : (Except.ok a >>= f) = f a := rfl

/-- The year a month is counted in, when years begin in March. -/
def marchYear (y m : Int) : Int := if m ≤ 2 then y - 1 else y

def marchMonth (m : Int) : Int := if 2 < m then m - 3 else m + 9

/-- The days before a date, from the first of March of the year 0 on. -/
def marchDays (y m d : Int) : Int :=
  365 * marchYear y m + marchYear y m / 4 - marchYear y m / 100 + marchYear y m / 400 +
    (153 * marchMonth m + 2) / 5 + d - 1

/-- **The days, unless there are too many of them.** The year is not negative because the
text of a date is cut at its minus signs. -/
theorem daysFromCivil_eq {y m d : Int} (hy : 0 ≤ y ∧ y ≤ i64Max) (hm : 1 ≤ m ∧ m ≤ 12)
    (hd : 1 ≤ d ∧ d ≤ 31) :
    daysFromCivil y m d =
      if marchDays y m d ≤ i64Max then .ok (some (marchDays y m d - 719468))
      else .error .overflow := by
  have hmin : i64Min = -9223372036854775808 := rfl
  have hmax : i64Max = 9223372036854775807 := rfl
  have hyear : (if m ≤ 2 then i64 (y - 1) else .ok y) = .ok (marchYear y m) := by
    unfold marchYear
    split_ifs with h
    · exact i64_ok (by omega)
    · rfl
  have hmonth : (if 2 < m then i64 (m - 3) else i64 (m + 9)) = .ok (marchMonth m) := by
    unfold marchMonth
    split_ifs with h <;> exact i64_ok (by omega)
  have hlow : -1 ≤ marchYear y m ∧ marchYear y m ≤ i64Max := by
    unfold marchYear
    split_ifs <;> omega
  have hmp : 0 ≤ marchMonth m ∧ marchMonth m ≤ 11 := by
    unfold marchMonth
    split_ifs <;> omega
  unfold daysFromCivil marchDays
  rw [if_neg (by omega), hyear, ok_bind, hmonth]
  generalize marchYear y m = year at hlow ⊢
  generalize marchMonth m = month at hmp ⊢
  obtain ⟨dividend, hdividend, hera⟩ : ∃ q : Int,
      (if 0 ≤ year then .ok year else i64 (year - 399)) = (.ok q : Except Overflow Int) ∧
        q.tdiv 400 = year / 400 := by
    by_cases h : 0 ≤ year
    · exact ⟨year, if_pos h, Int.tdiv_eq_ediv_of_nonneg h⟩
    · obtain rfl : year = -1 := by omega
      exact ⟨-400, rfl, rfl⟩
  have hyoe : year / 400 * 400 ≤ year ∧ year < year / 400 * 400 + 400 := by omega
  rw [hdividend, ok_bind, hera, i64_bind (by omega), i64_bind (by omega), ok_bind,
    i64_bind (by omega), i64_bind (by omega), Int.tdiv_eq_ediv_of_nonneg (by omega),
    Int.tdiv_eq_ediv_of_nonneg (by omega), Int.tdiv_eq_ediv_of_nonneg (by omega)]
  obtain ⟨era, hera⟩ : ∃ era, era = year / 400 := ⟨_, rfl⟩
  obtain ⟨yoe, hyoe⟩ : ∃ yoe, yoe = year - era * 400 := ⟨_, rfl⟩
  rw [← hera, ← hyoe]
  have hcount : 365 * year + year / 4 - year / 100 + era =
      era * 146097 + (yoe * 365 + yoe / 4 - yoe / 100) := by omega
  rw [hcount, i64_bind (by omega), i64_bind (by omega), i64_bind (by omega), i64_bind (by omega),
    i64_bind (by omega), i64_bind (by omega)]
  obtain ⟨doe, hdoe⟩ : ∃ doe, doe =
      yoe * 365 + yoe / 4 - yoe / 100 + ((153 * month + 2) / 5 + d - 1) := ⟨_, rfl⟩
  have hbound : 0 ≤ doe ∧ doe ≤ 146500 := by omega
  have hdays : era * 146097 + (yoe * 365 + yoe / 4 - yoe / 100) + (153 * month + 2) / 5 + d - 1 =
      era * 146097 + doe := by omega
  rw [← hdoe, hdays]
  by_cases heras : era * 146097 ≤ i64Max
  · rw [i64_bind (by omega)]
    by_cases hfits : era * 146097 + doe ≤ i64Max
    · rw [i64_bind (by omega), i64_bind (by omega), if_pos hfits]
      rfl
    · rw [i64_overflow (by omega), if_neg hfits]
  · rw [i64_overflow (by omega), if_neg (by omega)]

/-- The count in years from March on is the calendar's. -/
theorem marchDays_eq {year month day : Nat} (hm : 1 ≤ month ∧ month ≤ 12) (hd : 1 ≤ day) :
    marchDays year month day = dayNumber ⟨year, month, day⟩ - 60 := by
  have hyears := Calendar.daysOfYears_eq year
  unfold marchDays marchYear marchMonth dayNumber
  by_cases hmarch : 3 ≤ month
  · rw [if_neg (by omega), if_pos (by omega)]
    obtain ⟨n, rfl⟩ : ∃ n, month = n + 3 := ⟨month - 3, by omega⟩
    have hmonths := Calendar.daysOfMonths_eq year ⟨hmarch, hm.2⟩
    simp only [hmonths, Nat.add_sub_cancel]
    by_cases hleap : Leap year
    · rw [if_pos hleap]
      unfold Leap at hleap
      omega
    · rw [if_neg hleap]
      unfold Leap at hleap
      omega
  · rw [if_pos (by omega), if_neg (by omega)]
    have hmonths : Calendar.daysOfMonths year (month - 1) = 31 * (month - 1) := by
      obtain rfl | rfl : month = 1 ∨ month = 2 := by omega
      · rfl
      · rfl
    simp only [hmonths]
    omega

/-! ## Overflow -/

/-- The year of a text is cut at minus signs and fits. -/
theorem readFields_year {s : List Char} {f : TimestampFields} (h : readFields s = some f) :
    0 ≤ f.year ∧ f.year ≤ i64Max := by
  unfold readFields at h
  dsimp only at h
  split at h
  · cases h
  · simp only [Option.bind_eq_bind, Option.bind_eq_some_iff] at h
    obtain ⟨⟨date, time⟩, -, y, ⟨text, htext, hy⟩, mo, -, day, -, hh, -, mi, -, sec, -, hf⟩ := h
    obtain rfl := Option.some.inj hf
    have hminus := Decimal.not_mem_of_mem_pieces (List.mem_of_getElem? htext)
    exact ⟨Decimal.parseI64_nonneg hminus hy, (Decimal.parseI64_eq_some hy).2.2⟩

namespace TimestampFields

/-- The month and the day are ones that `days_from_civil` looks at. -/
def InRange (f : TimestampFields) : Prop :=
  (1 ≤ f.month ∧ f.month ≤ 12) ∧ 1 ≤ f.day ∧ f.day ≤ 31

instance (f : TimestampFields) : Decidable f.InRange :=
  inferInstanceAs (Decidable (_ ∧ _ ∧ _))

/-- The date of the fields; the day may lie past the end of the month. -/
def date (f : TimestampFields) : Date := ⟨f.year.toNat, f.month.toNat, f.day.toNat⟩

theorem daysFromCivil (f : TimestampFields) (hy : 0 ≤ f.year ∧ f.year ≤ i64Max)
    (h : f.InRange) :
    Interpreter.daysFromCivil f.year f.month f.day =
      if (dayNumber f.date : Int) - 60 ≤ i64Max then .ok (some (dayNumber f.date - 719528))
      else .error .overflow := by
  obtain ⟨year, month, day, hour, minute, second, ms⟩ := f
  obtain ⟨hm, hd⟩ := h
  simp only at hy hm hd
  lift year to Nat using hy.1
  lift month to Nat using by omega
  lift day to Nat using by omega
  rw [daysFromCivil_eq hy hm hd, marchDays_eq (by omega) (by omega)]
  have hepoch : ∀ n : Int, n - 60 - 719468 = n - 719528 := fun n => by omega
  simp only [date, Int.toNat_natCast, hepoch]
  rfl

end TimestampFields

/-- **The arithmetic overflows exactly for dates 2^63 days after the first of March of
the year 0.** -/
theorem parseRfc3339Ms_returns_iff (s : String) :
    (∃ r, parseRfc3339Ms s = .ok r) ↔
      ∀ f, readFields s.toList = some f → f.InRange → (dayNumber f.date : Int) - 60 ≤ i64Max := by
  unfold parseRfc3339Ms
  cases hread : readFields s.toList with
  | none => simp
  | some f =>
      have hyear := readFields_year hread
      simp only [Option.some.injEq, forall_eq']
      by_cases hrange : f.InRange
      · rw [f.daysFromCivil hyear hrange]
        by_cases hfits : (dayNumber f.date : Int) - 60 ≤ i64Max
        · rw [if_pos hfits]
          exact ⟨fun _ _ => hfits, fun _ => ⟨_, rfl⟩⟩
        · rw [if_neg hfits]
          refine ⟨?_, fun h => absurd (h hrange) hfits⟩
          rintro ⟨r, hr⟩
          cases hr
      · have hnone : daysFromCivil f.year f.month f.day = .ok none := by
          unfold daysFromCivil
          rw [if_pos]
          unfold TimestampFields.InRange at hrange
          omega
        rw [hnone]
        exact ⟨fun _ h => absurd h hrange, fun _ => ⟨_, rfl⟩⟩

/-- **The largest year that parses.** -/
theorem largest_year_overflows :
    parseRfc3339Ms "9223372036854775807-01-01T00:00:00Z" = .error .overflow := by
  decide +kernel

/-! ## Well-formed timestamps -/

/-- The value of the digits after the point. -/
def fractionValue : List Char → Rat
  | [] => 0
  | c :: rest => (Decimal.digitValue c + fractionValue rest) / 10

/-- A date, a time of day and a fraction of a second. -/
structure Timestamp where
  date : Date
  hour : Nat
  minute : Nat
  second : Nat
  fraction : Option (List Char)
  valid : date.Valid
  years : 1970 ≤ date.year ∧ date.year ≤ 9999
  time : hour < 24 ∧ minute < 60 ∧ second < 60
  decimal : ∀ c ∈ fraction.getD [], c.isDigit = true

namespace Timestamp

/-- `YYYY-MM-DD` -/
def dateText (t : Timestamp) : List Char :=
  digits 4 t.date.year ++ '-' :: (digits 2 t.date.month ++ '-' :: digits 2 t.date.day)

/-- `HH:MM:SS` -/
def timeText (t : Timestamp) : List Char :=
  digits 2 t.hour ++ ':' :: (digits 2 t.minute ++ ':' :: digits 2 t.second)

/-- `.fraction`, when there is one. -/
def fractionText (t : Timestamp) : List Char := t.fraction.elim [] ('.' :: ·)

def text (t : Timestamp) : String :=
  String.ofList (t.dateText ++ 'T' :: (t.timeText ++ t.fractionText) ++ ['Z'])

/-- The seconds from the first of January 1970 on, without leap seconds. -/
def unixSeconds (t : Timestamp) : Int :=
  (dayNumber t.date - dayNumber ⟨1970, 1, 1⟩) * 86400 + t.hour * 3600 + t.minute * 60 + t.second

/-- **The Unix time** of a timestamp, its fraction included. -/
def unixTime (t : Timestamp) : Rat := t.unixSeconds + fractionValue (t.fraction.getD [])

/-! ### The text is read back -/

/-- A list of digits has no other characters. -/
theorem not_mem_digits {width n : Nat} {c : Char} (h : c.isDigit = false) : c ∉ digits width n := by
  intro hmem
  rw [Decimal.isDigit_of_mem_digits hmem] at h
  cases h

theorem pieces_dateText (t : Timestamp) :
    pieces '-' t.dateText =
      [digits 4 t.date.year, digits 2 t.date.month, digits 2 t.date.day] := by
  have hminus : '-'.isDigit = false := rfl
  unfold dateText
  rw [Decimal.pieces_append (not_mem_digits hminus), Decimal.pieces_append (not_mem_digits hminus),
    Decimal.pieces_of_not_mem (not_mem_digits hminus)]

theorem pieces_timeText (t : Timestamp) :
    pieces ':' t.timeText = [digits 2 t.hour, digits 2 t.minute, digits 2 t.second] := by
  have hcolon : ':'.isDigit = false := rfl
  unfold timeText
  rw [Decimal.pieces_append (not_mem_digits hcolon), Decimal.pieces_append (not_mem_digits hcolon),
    Decimal.pieces_of_not_mem (not_mem_digits hcolon)]

theorem not_mem_dateText (t : Timestamp) {c : Char} (h : c.isDigit = false) (hc : c ≠ '-') :
    c ∉ t.dateText := by
  simp [dateText, not_mem_digits h, hc]

theorem not_mem_timeText (t : Timestamp) {c : Char} (h : c.isDigit = false) (hc : c ≠ ':') :
    c ∉ t.timeText := by
  simp [timeText, not_mem_digits h, hc]

theorem splitOnce_time (t : Timestamp) :
    (match splitOnce '.' (t.timeText ++ t.fractionText) with
      | some (a, b) => (a, some b)
      | none => (t.timeText ++ t.fractionText, none)) = (t.timeText, t.fraction) := by
  have hpoint : '.' ∉ t.timeText := t.not_mem_timeText rfl (by decide)
  unfold fractionText
  cases hfraction : t.fraction with
  | none =>
      rw [Option.elim_none, List.append_nil, Decimal.splitOnce_eq_none hpoint]
  | some f => rw [Option.elim_some, Decimal.splitOnce_append hpoint]

theorem isWhitespace_of_isDigit {c : Char} (h : c.isDigit = true) :
    Utf8.isWhitespace c = false := by
  simp only [Char.isDigit, Bool.and_eq_true, decide_eq_true_eq] at h
  have hlow : 48 ≤ c.toNat := h.1
  have hhigh : c.toNat ≤ 57 := h.2
  simp only [Utf8.isWhitespace, Bool.or_eq_false_iff, Bool.and_eq_false_iff, decide_eq_false_iff_not]
  omega

theorem trim_text (t : Timestamp) : Utf8.trim t.text.toList = t.text.toList := by
  rw [text, String.toList_ofList]
  apply Utf8.trim_eq_self
  · intro c hc
    have hpos : 0 < (digits 4 t.date.year).length := by
      rw [Decimal.digits_length]
      omega
    obtain ⟨d, rest, hdigits⟩ := List.exists_cons_of_length_pos hpos
    have hd : d ∈ digits 4 t.date.year := hdigits ▸ List.mem_cons_self
    rw [dateText, hdigits] at hc
    obtain rfl : d = c := Option.some.inj hc
    exact isWhitespace_of_isDigit (Decimal.isDigit_of_mem_digits hd)
  · intro c hc
    rw [List.getLast?_concat] at hc
    obtain rfl : 'Z' = c := Option.some.inj hc
    rfl

theorem length_text (t : Timestamp) : 20 ≤ t.text.toList.length := by
  rw [text, String.toList_ofList]
  simp [dateText, timeText]
  omega

theorem readFields_text (t : Timestamp) :
    readFields t.text.toList =
      some ⟨t.date.year, t.date.month, t.date.day, t.hour, t.minute, t.second,
        readMs t.fraction⟩ := by
  have hlen : 20 ≤ (Utf8.bytes t.text.toList).length :=
    Nat.le_trans t.length_text (Utf8.length_le_length_bytes _)
  have hlast : t.text.toList.getLast? = some 'Z' := by
    rw [text, String.toList_ofList, List.getLast?_concat]
  have hcore : t.text.toList.dropLast = t.dateText ++ 'T' :: (t.timeText ++ t.fractionText) := by
    rw [text, String.toList_ofList, List.dropLast_concat]
  obtain ⟨⟨hmonth, hday⟩, hyears, htime⟩ := And.intro t.valid (And.intro t.years t.time)
  have hmonthLength := Calendar.monthLength_le t.date.year t.date.month
  have hmax : i64Max = 9223372036854775807 := rfl
  have hread : ∀ {width n : Nat}, 0 < width → n < 10 ^ width → n < 10000 →
      parseI64 (digits width n) = some (n : Int) :=
    fun hwidth hn hsmall => Decimal.parseI64_digits hwidth hn (by omega)
  have hnotZ : ¬ (t.text.toList.getLast? ≠ some 'Z' ∨ (Utf8.bytes t.text.toList).length < 20) := by
    rintro (h | h)
    · exact h hlast
    · omega
  unfold readFields
  dsimp only
  rw [t.trim_text, if_neg hnotZ, hcore,
    Decimal.splitOnce_append (t.not_mem_dateText rfl (by decide))]
  simp only [Option.bind_eq_bind, Option.bind_some, t.pieces_dateText]
  rw [t.splitOnce_time]
  simp only [t.pieces_timeText, List.getElem?_cons_zero, List.getElem?_cons_succ, Option.bind_some]
  rw [hread (by omega) (by omega) (by omega), hread (by omega) (by omega) (by omega),
    hread (by omega) (by omega) (by omega), hread (by omega) (by omega) (by omega),
    hread (by omega) (by omega) (by omega), hread (by omega) (by omega) (by omega)]
  rfl

/-! ### The value -/

theorem fractionValue_range {f : List Char} (h : ∀ c ∈ f, c.isDigit = true) :
    0 ≤ fractionValue f ∧ fractionValue f < 1 := by
  induction f with
  | nil => exact ⟨le_rfl, by norm_num [fractionValue]⟩
  | cons c rest ih =>
      obtain ⟨hlow, hhigh⟩ := ih fun c' hc' => h c' (List.mem_cons_of_mem _ hc')
      have hc : (Decimal.digitValue c : Rat) ≤ 9 := by
        exact_mod_cast Decimal.digitValue_le (h c List.mem_cons_self)
      have hpos : (0 : Rat) ≤ Decimal.digitValue c := Nat.cast_nonneg _
      unfold fractionValue
      constructor
      · positivity
      · linarith

/-- The three digits that are read, with zeros where the fraction is too short. -/
theorem padded_eq {f : List Char} (h : ∀ c ∈ f, c.isDigit = true) :
    ∃ a b c rest, padded f = [a, b, c] ∧ fractionValue f = fractionValue (a :: b :: c :: rest) ∧
      ∀ d ∈ a :: b :: c :: rest, d.isDigit = true := by
  have hzero : Decimal.digitValue '0' = 0 := rfl
  match f with
  | [] => exact ⟨'0', '0', '0', [], rfl, by simp [fractionValue, hzero],
      List.all_eq_true.mp rfl⟩
  | [a] =>
      refine ⟨a, '0', '0', [], rfl, by simp [fractionValue, hzero], ?_⟩
      simpa using h a List.mem_cons_self
  | [a, b] =>
      refine ⟨a, b, '0', [], rfl, by simp [fractionValue, hzero], ?_⟩
      simpa using And.intro (h a (by simp)) (h b (by simp))
  | a :: b :: c :: rest => exact ⟨a, b, c, rest, rfl, rfl, h⟩

/-- **The milliseconds of a fraction are its first three digits.** -/
theorem readMs_eq {f : List Char} (h : ∀ c ∈ f, c.isDigit = true) :
    readMs (some f) = ⌊1000 * fractionValue f⌋ := by
  obtain ⟨a, b, c, rest, hpadded, hvalue, hdigits⟩ := padded_eq h
  have hthree : ∀ d ∈ [a, b, c], d.isDigit = true := by
    intro d hd
    apply hdigits
    simp only [List.mem_cons, List.not_mem_nil, or_false] at hd ⊢
    tauto
  obtain ⟨hlow, hhigh⟩ := fractionValue_range fun d hd =>
    hdigits d (List.mem_cons_of_mem _ (List.mem_cons_of_mem _ (List.mem_cons_of_mem _ hd)))
  have hlt : Decimal.value [a, b, c] < 10 ^ 3 := Decimal.value_lt hthree
  have hfits : i64Min ≤ (Decimal.value [a, b, c] : Int) ∧
      (Decimal.value [a, b, c] : Int) ≤ i64Max := by
    unfold i64Min i64Max
    omega
  rw [readMs, hpadded, Decimal.parseI64_of_digits (by simp) hthree, ofI64, if_pos hfits,
    Option.getD_some, hvalue, eq_comm, Int.floor_eq_iff]
  have hsplit : 1000 * fractionValue (a :: b :: c :: rest) =
      (Decimal.value [a, b, c] : Int) + fractionValue rest := by
    simp only [fractionValue, Decimal.value, List.foldl_cons, List.foldl_nil]
    push_cast
    ring
  rw [hsplit]
  exact ⟨by linarith, by linarith⟩

theorem readMs_fraction (t : Timestamp) :
    readMs t.fraction = ⌊1000 * fractionValue (t.fraction.getD [])⌋ := by
  cases hfraction : t.fraction with
  | none => simp [readMs, fractionValue]
  | some f =>
      have hdecimal := t.decimal
      rw [hfraction] at hdecimal
      exact readMs_eq hdecimal

theorem dayNumber_epoch : dayNumber ⟨1970, 1, 1⟩ = 719528 := by decide +kernel

/-- The days since the epoch are few. -/
theorem days_range (t : Timestamp) :
    719528 ≤ dayNumber t.date ∧ dayNumber t.date ≤ 3700000 := by
  obtain ⟨⟨hmonth, hday⟩, hyears⟩ := And.intro t.valid t.years
  have hlow := Calendar.daysOfYears_le hyears.1
  have hhigh := Calendar.daysOfYears_le hyears.2
  have hepoch : Calendar.daysOfYears 1970 = 719528 := by decide +kernel
  have hlast : Calendar.daysOfYears 9999 = 3652060 := by decide +kernel
  have hmonths := Calendar.daysOfMonths_le t.date.year (t.date.month - 1)
  have hdays := Calendar.monthLength_le t.date.year t.date.month
  unfold dayNumber
  omega

theorem unixSeconds_range (t : Timestamp) :
    0 ≤ t.unixSeconds ∧ t.unixSeconds ≤ 400000000000 := by
  obtain ⟨hlow, hhigh⟩ := t.days_range
  have htime := t.time
  unfold unixSeconds
  rw [dayNumber_epoch]
  omega

theorem readMs_range (t : Timestamp) : 0 ≤ readMs t.fraction ∧ readMs t.fraction ≤ 999 := by
  obtain ⟨hlow, hhigh⟩ := fractionValue_range t.decimal
  rw [readMs_fraction]
  constructor
  · exact Int.floor_nonneg.mpr (by linarith)
  · apply Int.le_of_lt_add_one
    rw [Int.floor_lt]
    push_cast
    linarith

/-- `checked_mul` and `checked_add` fit all the way. -/
theorem totalMs_eq (t : Timestamp) :
    totalMs (dayNumber t.date - 719528) ⟨t.date.year, t.date.month, t.date.day, t.hour, t.minute,
      t.second, readMs t.fraction⟩ = some (1000 * t.unixSeconds + readMs t.fraction).toNat := by
  obtain ⟨hlow, hhigh⟩ := t.days_range
  obtain ⟨hms, hms'⟩ := t.readMs_range
  have htime := t.time
  have hmin : i64Min = -9223372036854775808 := rfl
  have hmax : i64Max = 9223372036854775807 := rfl
  have hfits : ∀ {n : Int}, i64Min ≤ n ∧ n ≤ i64Max → ofI64 n = some n := fun h => if_pos h
  unfold totalMs
  simp only [Option.bind_eq_bind]
  rw [hfits (by omega), Option.bind_some, hfits (by omega), Option.bind_some, hfits (by omega),
    Option.bind_some, hfits (by omega), Option.bind_some, hfits (by omega), Option.bind_some,
    hfits (by omega), Option.bind_some, hfits (by omega), Option.bind_some, hfits (by omega),
    Option.bind_some, if_neg (by omega)]
  unfold unixSeconds
  rw [dayNumber_epoch]
  congr 2
  push_cast
  ring

/-- The Unix time in whole milliseconds. -/
theorem floor_unixTime (t : Timestamp) :
    ⌊1000 * t.unixTime⌋ = 1000 * t.unixSeconds + readMs t.fraction := by
  have hsum : 1000 * t.unixTime =
      (1000 * t.unixSeconds : Int) + 1000 * fractionValue (t.fraction.getD []) := by
    unfold unixTime
    push_cast
    ring
  rw [hsum, Int.floor_intCast_add, readMs_fraction]

theorem parse_text (t : Timestamp) :
    parseRfc3339Ms t.text = .ok (some ⌊1000 * t.unixTime⌋.toNat) := by
  have hrange : TimestampFields.InRange ⟨t.date.year, t.date.month, t.date.day, t.hour, t.minute,
      t.second, readMs t.fraction⟩ := by
    obtain ⟨hmonth, hday⟩ := t.valid
    have hdays := Calendar.monthLength_le t.date.year t.date.month
    unfold TimestampFields.InRange
    simp only
    omega
  have hyear := readFields_year t.readFields_text
  have hfits : (dayNumber t.date : Int) - 60 ≤ i64Max := by
    obtain ⟨-, hhigh⟩ := t.days_range
    unfold i64Max
    omega
  have hdate : TimestampFields.date ⟨t.date.year, t.date.month, t.date.day, t.hour, t.minute,
      t.second, readMs t.fraction⟩ = t.date := rfl
  have hdays := TimestampFields.daysFromCivil _ hyear hrange
  rw [hdate, if_pos hfits] at hdays
  unfold parseRfc3339Ms
  rw [t.readFields_text]
  dsimp only at hdays ⊢
  rw [hdays, ok_bind, t.floor_unixTime, ← t.totalMs_eq]
  rfl

end Timestamp

/-- **A timestamp is read as its Unix time in whole milliseconds**, and an earlier one as
no later a time. -/
theorem parseRfc3339Ms_text (t : Timestamp) :
    parseRfc3339Ms t.text = .ok (some ⌊1000 * t.unixTime⌋.toNat) ∧
      0 ≤ ⌊1000 * t.unixTime⌋ ∧
      ∀ t' : Timestamp, t.unixTime ≤ t'.unixTime →
        ∃ ms ms', parseRfc3339Ms t.text = .ok (some ms) ∧ parseRfc3339Ms t'.text = .ok (some ms') ∧
          ms ≤ ms' := by
  refine ⟨t.parse_text, ?_, ?_⟩
  · obtain ⟨hsecs, -⟩ := t.unixSeconds_range
    obtain ⟨hms, -⟩ := t.readMs_range
    rw [t.floor_unixTime]
    omega
  · intro t' hle
    refine ⟨_, _, t.parse_text, t'.parse_text, ?_⟩
    apply Int.toNat_le_toNat
    apply Int.floor_le_floor
    linarith

/-- `2026-08-16T09:12:22.325Z` -/
def sampleTimestamp : Timestamp where
  date := ⟨2026, 8, 16⟩
  hour := 9
  minute := 12
  second := 22
  fraction := some ['3', '2', '5']
  valid := ⟨by decide +kernel, by decide +kernel⟩
  years := by decide +kernel
  time := by decide +kernel
  decimal := List.all_eq_true.mp rfl

theorem sampleTimestamp_text : sampleTimestamp.text = "2026-08-16T09:12:22.325Z" := by
  decide +kernel

theorem sample_parsed :
    ∃ ms ms', parseRfc3339Ms sampleTimestamp.text = .ok (some ms) ∧
      parseRfc3339Ms sampleTimestamp.text = .ok (some ms') ∧ ms ≤ ms' :=
  (parseRfc3339Ms_text sampleTimestamp).2.2 sampleTimestamp le_rfl

end Monoloop.Interpreter
