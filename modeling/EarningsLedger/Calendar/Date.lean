/-!
# Civil dates

The calendar of leap years without end: every fourth year is a leap year, except the
centuries that are not a multiple of four hundred. A date is a year, a month and a day;
its day number counts from the first of January of the year 1, which is day 0.
`ofDayNumber` splits a day number into cycles of four hundred, one hundred and four
years, and then walks the months of the year it falls in.
-/

namespace EarningsLedger.Calendar

/-- A date of the civil calendar. -/
structure Date where
  year : Nat
  month : Nat
  day : Nat
  deriving DecidableEq, Repr

/-! ## Lengths -/

/-- Whether a year has a 29th of February. -/
def isLeap (year : Nat) : Bool :=
  year % 4 == 0 && (year % 100 != 0 || year % 400 == 0)

/-- The lengths of the months of a year, in order. -/
def monthLengths (year : Nat) : List Nat :=
  [31, if isLeap year then 29 else 28, 31, 30, 31, 30, 31, 31, 30, 31, 30, 31]

/-- The length of a month, which is zero for a month that does not exist. -/
def monthLength (year month : Nat) : Nat :=
  match month with
  | 0 => 0
  | k + 1 => (monthLengths year).getD k 0

/-- The days before the first of January of a year. -/
def daysBeforeYear (year : Nat) : Nat :=
  let past := year - 1
  365 * past + past / 4 - past / 100 + past / 400

/-- The days of months of the given lengths. -/
def daysOf (lengths : List Nat) : Nat := lengths.foldr (· + ·) 0

/-- The days from the first of January to the first of a month. -/
def daysBeforeMonth (year month : Nat) : Nat :=
  daysOf ((monthLengths year).take (month - 1))

/-! ## Day numbers -/

/-- The year a day falls in, and the days of that year before it. -/
def yearOfDay (day : Nat) : Nat × Nat :=
  let inEra := day % 146097
  let century := min (inEra / 36524) 3
  let inCentury := inEra - century * 36524
  let inQuad := inCentury % 1461
  let year := min (inQuad / 365) 3
  (400 * (day / 146097) + 100 * century + 4 * (inCentury / 1461) + year + 1, inQuad - year * 365)

/-- Walks month lengths: the number of whole months before a day, and the days left. -/
def monthOfDay : List Nat → Nat → Nat × Nat
  | [], day => (0, day)
  | length :: rest, day =>
    if day < length then (0, day)
    else
      let inner := monthOfDay rest (day - length)
      (inner.1 + 1, inner.2)

namespace Date

/-- The days from the first of January of the year 1 to a date. -/
def dayNumber (date : Date) : Nat :=
  daysBeforeYear date.year + daysBeforeMonth date.year date.month + (date.day - 1)

def ofDayNumber (day : Nat) : Date :=
  let year := yearOfDay day
  let month := monthOfDay (monthLengths year.1) year.2
  ⟨year.1, month.1 + 1, month.2 + 1⟩

/-- Whether a date exists, in the years 1 to 9999. -/
def exists? (date : Date) : Bool :=
  1 ≤ date.year && date.year ≤ 9999 && 1 ≤ date.day && date.day ≤ monthLength date.year date.month

end Date

/-! ## Day numbers determine dates -/

/-- The days before a year, from the cycles it is made of. -/
theorem daysBeforeYear_cycles {era century quad year : Nat}
    (hcentury : century ≤ 3) (hquad : quad ≤ 24) (hyear : year ≤ 3) :
    daysBeforeYear (400 * era + 100 * century + 4 * quad + year + 1) =
      146097 * era + 36524 * century + 1461 * quad + 365 * year := by
  have past : 400 * era + 100 * century + 4 * quad + year + 1 - 1 =
      400 * era + 100 * century + 4 * quad + year := by omega
  have fours : (400 * era + 100 * century + 4 * quad + year) / 4 =
      100 * era + 25 * century + quad := by omega
  have hundreds : (400 * era + 100 * century + 4 * quad + year) / 100 =
      4 * era + century := by omega
  have eras : (400 * era + 100 * century + 4 * quad + year) / 400 = era := by omega
  simp only [daysBeforeYear, past, fours, hundreds, eras]
  omega

/-- Splitting a day number loses nothing: the year's first day and the days after it
add up to it again. -/
theorem daysBeforeYear_yearOfDay (day : Nat) :
    daysBeforeYear (yearOfDay day).1 + (yearOfDay day).2 = day := by
  simp only [yearOfDay]
  rw [daysBeforeYear_cycles (by omega) (by omega) (by omega)]
  omega

/-- Walking the months loses nothing either. -/
theorem daysOf_take_monthOfDay (lengths : List Nat) (day : Nat) :
    daysOf (lengths.take (monthOfDay lengths day).1) + (monthOfDay lengths day).2 = day := by
  induction lengths generalizing day with
  | nil => simp [monthOfDay, daysOf]
  | cons length rest ih =>
    by_cases inside : day < length
    · simp [monthOfDay, daysOf, inside]
    · have later := ih (day - length)
      simp only [monthOfDay, daysOf, inside, if_false, List.take_succ_cons,
        List.foldr_cons] at later ⊢
      omega

/-- A date keeps the day number it was made from. -/
theorem Date.dayNumber_ofDayNumber (day : Nat) : (Date.ofDayNumber day).dayNumber = day := by
  have months := daysOf_take_monthOfDay (monthLengths (yearOfDay day).1) (yearOfDay day).2
  have years := daysBeforeYear_yearOfDay day
  simp only [Date.dayNumber, Date.ofDayNumber, daysBeforeMonth, Nat.add_sub_cancel]
  omega

end EarningsLedger.Calendar
