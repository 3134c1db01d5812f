import EarningsLedger.Proofs.CivilDates
import Mathlib.Tactic.IntervalCases

/-!
# The least stamp behind a previous one

The stamp of a change has to lie behind the previous stamp and not before the present.
`Calendar.least_stamp_behind_previous` says that `nextStamp?` finds the least such instant:
the later one of the present and of the microsecond behind the previous stamp, wherever the
clock of the previous stamp stood.  It finds none exactly when the previous stamp is in no
year of the calendar once it is told in universal time, or is the last instant there.

Instants are counted in microseconds, while people read years, months and days.  The first
part of this module orders dates the way they are read and shows that their day numbers
follow that order, so a date is told by its number.  The second part carries one microsecond
through a reading, from the second up to the year, and shows that the reading of the next
instant is just that.
-/

namespace EarningsLedger.Calendar

/-! ## Day numbers follow the order of dates -/

theorem daysOf_take_succ (lengths : List Nat) (k : Nat) :
    daysOf (lengths.take (k + 1)) = daysOf (lengths.take k) + lengths.getD k 0 := by
  induction lengths generalizing k with
  | nil => simp [daysOf]
  | cons length rest ih =>
    cases k with
    | zero => simp [daysOf]
    | succ k =>
      have later := ih k
      simp only [daysOf, List.take_succ_cons, List.foldr_cons, List.getD_cons_succ] at later ⊢
      omega

/-- The first of a month comes behind the days of the month before. -/
theorem daysBeforeMonth_succ (year : Nat) {month : Nat} (possible : 1 ≤ month) :
    daysBeforeMonth year (month + 1) = daysBeforeMonth year month + monthLength year month := by
  obtain ⟨k, rfl⟩ := Nat.exists_eq_add_of_le' possible
  exact daysOf_take_succ (monthLengths year) k

theorem daysBeforeMonth_le {year month later : Nat} (possible : 1 ≤ month)
    (order : month ≤ later) : daysBeforeMonth year month ≤ daysBeforeMonth year later := by
  induction later, order using Nat.le_induction with
  | base => exact Nat.le_refl _
  | succ later order ih =>
    rw [daysBeforeMonth_succ year (possible.trans order)]
    omega

theorem isLeap_iff {year : Nat} :
    isLeap year = true ↔ 4 ∣ year ∧ (¬ 100 ∣ year ∨ 400 ∣ year) := by
  simp only [isLeap, Bool.and_eq_true, Bool.or_eq_true, beq_iff_eq, bne_iff_ne,
    Nat.dvd_iff_mod_eq_zero]

/-- The first of a year comes behind the days of the year before. -/
theorem daysBeforeYear_succ {year : Nat} (possible : 1 ≤ year) :
    daysBeforeYear (year + 1) = daysBeforeYear year + daysOf (monthLengths year) := by
  obtain ⟨past, rfl⟩ := Nat.exists_eq_add_of_le' possible
  have fours : (past + 1) / 4 = past / 4 + if 4 ∣ past + 1 then 1 else 0 := Nat.succ_div
  have hundreds : (past + 1) / 100 = past / 100 + if 100 ∣ past + 1 then 1 else 0 := Nat.succ_div
  have eras : (past + 1) / 400 = past / 400 + if 400 ∣ past + 1 then 1 else 0 := Nat.succ_div
  rw [daysOf_monthLengths]
  simp only [daysBeforeYear, Nat.add_sub_cancel, fours, hundreds, eras, isLeap_iff]
  split_ifs <;> omega

theorem daysBeforeYear_le {year later : Nat} (possible : 1 ≤ year) (order : year ≤ later) :
    daysBeforeYear year ≤ daysBeforeYear later := by
  induction later, order using Nat.le_induction with
  | base => exact Nat.le_refl _
  | succ later order ih =>
    rw [daysBeforeYear_succ (possible.trans order)]
    omega

theorem monthLength_pos (year month : Nat) (first : 1 ≤ month) (last : month ≤ 12) :
    1 ≤ monthLength year month := by
  cases leap : isLeap year <;> interval_cases month <;> simp [monthLength, monthLengths, leap]

namespace Date

/-- A date is read before another: by year, then by month, then by day. -/
def Before (a b : Date) : Prop :=
  a.year < b.year ∨ a.year = b.year ∧ (a.month < b.month ∨ a.month = b.month ∧ a.day < b.day)

/-- The month of a date that exists is one of twelve. -/
theorem month_of_exists {date : Date} (possible : date.exists? = true) :
    1 ≤ date.month ∧ date.month ≤ 12 := by
  obtain ⟨-, -, first, last⟩ := exists?_iff.mp possible
  cases month : date.month with
  | zero =>
    rw [month] at last
    exact absurd (first.trans last) (by simp [monthLength])
  | succ k =>
    rw [month] at last
    by_contra beyond
    have none : monthLength date.year (k + 1) = 0 := by
      have behind : (monthLengths date.year).length ≤ k := by rw [length_monthLengths]; omega
      rw [monthLength, List.getD_eq_getElem?_getD, List.getElem?_eq_none behind]
      rfl
    omega

/-- The days of a date that exists, up to and including its own, do not reach beyond its
month. -/
theorem dayNumber_lt_month {date : Date} (possible : date.exists? = true) :
    date.dayNumber <
      daysBeforeYear date.year + daysBeforeMonth date.year (date.month + 1) := by
  obtain ⟨-, -, first, last⟩ := exists?_iff.mp possible
  rw [daysBeforeMonth_succ date.year (month_of_exists possible).1, dayNumber]
  omega

/-- Nor do they reach beyond its year. -/
theorem dayNumber_lt_year {date : Date} (possible : date.exists? = true) :
    date.dayNumber < daysBeforeYear (date.year + 1) := by
  obtain ⟨year, -, -, -⟩ := exists?_iff.mp possible
  obtain ⟨first, last⟩ := month_of_exists possible
  have inMonth := dayNumber_lt_month possible
  have inYear : daysBeforeMonth date.year (date.month + 1) ≤ daysBeforeMonth date.year 13 :=
    daysBeforeMonth_le (by omega) (by omega)
  have whole : daysBeforeMonth date.year 13 = daysOf (monthLengths date.year) := rfl
  rw [daysBeforeYear_succ year]
  omega

/-- **Day numbers grow with dates** as they are read. -/
theorem dayNumber_lt_of_before {a b : Date} (first : a.exists? = true) (before : a.Before b) :
    a.dayNumber < b.dayNumber := by
  rcases before with year | ⟨year, month | ⟨month, day⟩⟩
  · have inYear := dayNumber_lt_year first
    have order : daysBeforeYear (a.year + 1) ≤ daysBeforeYear b.year := daysBeforeYear_le (by omega) year
    have behind : daysBeforeYear b.year ≤ b.dayNumber := by rw [dayNumber]; omega
    omega
  · have inMonth := dayNumber_lt_month first
    have order : daysBeforeMonth a.year (a.month + 1) ≤ daysBeforeMonth a.year b.month :=
      daysBeforeMonth_le (by omega) month
    have behind : daysBeforeYear a.year + daysBeforeMonth a.year b.month ≤ b.dayNumber := by
      rw [dayNumber, ← year]
      omega
    omega
  · obtain ⟨-, -, possible, -⟩ := exists?_iff.mp first
    rw [dayNumber, dayNumber, year, month]
    omega

/-- Two dates that exist are in order, or they are one. -/
theorem before_or_eq_or_before (a b : Date) : a.Before b ∨ a = b ∨ b.Before a := by
  obtain ⟨year, month, day⟩ := a
  obtain ⟨year', month', day'⟩ := b
  simp only [Before, Date.mk.injEq]
  omega

theorem eq_of_dayNumber {a b : Date} (first : a.exists? = true) (second : b.exists? = true)
    (same : a.dayNumber = b.dayNumber) : a = b := by
  rcases before_or_eq_or_before a b with before | equal | behind
  · exact absurd same (dayNumber_lt_of_before first before).ne
  · exact equal
  · exact absurd same (dayNumber_lt_of_before second behind).ne'

/-- **A date that exists is told by its day number.** -/
theorem ofDayNumber_dayNumber {date : Date} (possible : date.exists? = true) :
    ofDayNumber date.dayNumber = date := by
  obtain ⟨-, year, -, -⟩ := exists?_iff.mp possible
  have early : date.dayNumber < 3652059 := by
    have inYear := dayNumber_lt_year possible
    have order : daysBeforeYear (date.year + 1) ≤ daysBeforeYear 10000 :=
      daysBeforeYear_le (by omega) (by omega)
    have last : daysBeforeYear 10000 = 3652059 := rfl
    omega
  exact eq_of_dayNumber (exists_ofDayNumber early).1 possible (dayNumber_ofDayNumber _)

/-! ## One microsecond on -/

/-- The date behind a date: the next day of the month, the first of the next month, or the
first of the next year. -/
def following (date : Date) : Date :=
  if date.day < monthLength date.year date.month then ⟨date.year, date.month, date.day + 1⟩
  else if date.month < 12 then ⟨date.year, date.month + 1, 1⟩
  else ⟨date.year + 1, 1, 1⟩

theorem dayNumber_following {date : Date} (possible : date.exists? = true) :
    date.following.dayNumber = date.dayNumber + 1 := by
  obtain ⟨year, -, first, last⟩ := exists?_iff.mp possible
  obtain ⟨month, late⟩ := month_of_exists possible
  have monthEnd := daysBeforeMonth_succ date.year month
  unfold following
  split
  · simp only [dayNumber]
    omega
  · next whole =>
    split
    · simp only [dayNumber]
      omega
    · next december =>
      have twelve : date.month = 12 := by omega
      have yearEnd : daysBeforeMonth date.year (date.month + 1) =
          daysOf (monthLengths date.year) := by rw [twelve]; rfl
      have january : daysBeforeMonth (date.year + 1) 1 = 0 := rfl
      simp only [dayNumber, daysBeforeYear_succ year, january]
      omega

/-- The date behind a date exists, unless the calendar ends there. -/
theorem exists_following {date : Date} (possible : date.exists? = true)
    (more : date ≠ ⟨9999, 12, 31⟩) : date.following.exists? = true := by
  obtain ⟨year, late, first, last⟩ := exists?_iff.mp possible
  obtain ⟨month, twelve⟩ := month_of_exists possible
  unfold following
  split
  · next inside => exact exists?_iff.mpr ⟨year, late, by simp, inside⟩
  · next whole =>
    split
    · next inside =>
      have days := monthLength_pos date.year (date.month + 1) (by omega) (by omega)
      exact exists?_iff.mpr ⟨year, late, Nat.le_refl 1, days⟩
    · next december =>
      have days := monthLength_pos (date.year + 1) 1 (by omega) (by omega)
      refine exists?_iff.mpr ⟨Nat.le_add_left 1 _, ?_, Nat.le_refl 1, days⟩
      by_contra beyond
      apply more
      have nine : date.year = 9999 := by
        have beyond : ¬ date.year + 1 ≤ 9999 := beyond
        omega
      have twelve : date.month = 12 := by omega
      have days : monthLength date.year date.month = 31 := by rw [nine, twelve]; rfl
      obtain ⟨y, m, d⟩ := date
      simp only [Date.mk.injEq] at *
      omega

end Date

/-- The clock reading one microsecond later, if it is of the same day. -/
def TimeOfDay.following? (time : TimeOfDay) : Option TimeOfDay :=
  if time.micro < 999999 then some ⟨time.hour, time.minute, time.second, time.micro + 1⟩
  else if time.second < 59 then some ⟨time.hour, time.minute, time.second + 1, 0⟩
  else if time.minute < 59 then some ⟨time.hour, time.minute + 1, 0, 0⟩
  else if time.hour < 23 then some ⟨time.hour + 1, 0, 0, 0⟩
  else none

theorem TimeOfDay.following?_eq_some {time later : TimeOfDay} (possible : time.exists? = true)
    (found : time.following? = some later) :
    later.exists? = true ∧ later.micros = time.micros + 1 := by
  obtain ⟨hour, minute, second, micro⟩ := exists?_iff.mp possible
  unfold following? at found
  rw [exists?_iff]
  split_ifs at found <;> cases found <;> simp only [micros] <;> omega

theorem TimeOfDay.following?_eq_none {time : TimeOfDay} (possible : time.exists? = true)
    (found : time.following? = none) : time.micros + 1 = dayMicros := by
  obtain ⟨hour, minute, second, micro⟩ := exists?_iff.mp possible
  unfold following? at found
  split_ifs at found
  simp only [micros, dayMicros]
  omega

/-- A date and a clock reading, one microsecond later. -/
def followingReading (date : Date) (time : TimeOfDay) : Date × TimeOfDay :=
  match time.following? with
  | some later => (date, later)
  | none => (date.following, ⟨0, 0, 0, 0⟩)

namespace Instant

/-- An instant is told by a date and a clock reading that exist. -/
theorem reading_eq {t : Instant} {date : Date} {time : TimeOfDay} (day : date.exists? = true)
    (clock : time.exists? = true) (sum : date.dayNumber * dayMicros + time.micros = t.micros) :
    (t.date, t.timeOfDay) = (date, time) := by
  obtain ⟨hour, minute, second, micro⟩ := TimeOfDay.exists?_iff.mp clock
  have inDay : time.micros < dayMicros := by
    simp only [TimeOfDay.micros, dayMicros]
    omega
  have number : t.micros / dayMicros = date.dayNumber := by
    rw [← sum, Nat.mul_comm, Nat.mul_add_div (by decide), Nat.div_eq_of_lt inDay, Nat.add_zero]
  have rest : t.micros % dayMicros = time.micros := by
    rw [← sum, Nat.mul_comm, Nat.mul_add_mod, Nat.mod_eq_of_lt inDay]
  have dates : t.date = date := by
    rw [Instant.date, number, Date.ofDayNumber_dayNumber day]
  have clocks : t.timeOfDay = time := by
    obtain ⟨h, m, s, u⟩ := time
    simp only [timeOfDay, rest, TimeOfDay.micros, TimeOfDay.mk.injEq] at *
    omega
  rw [dates, clocks]

/-- The last instant is read as the last microsecond of the last day. -/
theorem isLast_iff {t : Instant} :
    t.IsLast ↔ t.date = ⟨9999, 12, 31⟩ ∧ t.timeOfDay = ⟨23, 59, 59, 999999⟩ := by
  constructor
  · intro last
    have sum : (⟨9999, 12, 31⟩ : Date).dayNumber * dayMicros +
        (⟨23, 59, 59, 999999⟩ : TimeOfDay).micros = t.micros := by
      have last : t.micros + 1 = calendarMicros := last
      have count : (⟨9999, 12, 31⟩ : Date).dayNumber * dayMicros +
          (⟨23, 59, 59, 999999⟩ : TimeOfDay).micros + 1 = calendarMicros := by decide
      omega
    exact Prod.mk.inj (reading_eq (by decide) (by decide) sum)
  · rintro ⟨date, time⟩
    have sum := t.micros_eq
    rw [date, time] at sum
    rw [IsLast, ← sum]
    decide

/-- **The instant behind another is read one microsecond later**, however far the carry
goes. -/
theorem reading_of_next? {t later : Instant} (next : t.next? = some later) :
    (later.date, later.timeOfDay) = followingReading t.date t.timeOfDay := by
  have possible := t.date_exists.1
  have clock := t.timeOfDay_exists
  have micros := micros_of_next? next
  have sum := t.micros_eq
  unfold followingReading
  cases found : t.timeOfDay.following? with
  | some time =>
    obtain ⟨there, count⟩ := TimeOfDay.following?_eq_some clock found
    exact reading_eq possible there (by rw [count]; omega)
  | none =>
    have whole := TimeOfDay.following?_eq_none clock found
    have more : t.date ≠ ⟨9999, 12, 31⟩ := by
      intro last
      have none : t.next? = none := by
        apply next?_eq_none_iff.mpr
        have number : (⟨9999, 12, 31⟩ : Date).dayNumber * dayMicros + dayMicros =
            calendarMicros := by decide
        rw [last] at sum
        unfold IsLast
        omega
      rw [none] at next
      cases next
    refine reading_eq (Date.exists_following possible more) (by decide) ?_
    have midnight : (⟨0, 0, 0, 0⟩ : TimeOfDay).micros = 0 := rfl
    rw [Date.dayNumber_following possible, midnight, Nat.add_mul]
    omega

end Instant

/-! ## Clocks of universal time -/

/-- What a clock of universal time counts at a moment, in the calendar or not. -/
def Moment.universalMicros (m : Moment) : Int := m.reading.micros - m.offset.getD 0

theorem Moment.universal?_eq_some_iff {m : Moment} {t : Instant} :
    m.universal? = some t ↔ (t.micros : Int) = m.universalMicros := by
  obtain ⟨reading, offset⟩ := m
  cases offset with
  | none =>
    simp only [universal?, universalMicros, Option.getD_none, Int.sub_zero, Option.some.injEq]
    constructor
    · rintro rfl
      rfl
    · intro same
      exact (Instant.ext_micros (by omega)).symm
  | some offset => exact Instant.ofMicros?_eq_some_iff

/-- The days of four hundred years, and the year each of them falls in. -/
theorem yearOfDay_inEra {day : Nat} (inEra : day < 146097) :
    1 ≤ (yearOfDay day).1 ∧ (yearOfDay day).1 ≤ 400 ∧
      ((yearOfDay day).1 ≤ 399 ↔ day < 145731) := by
  have sum := daysBeforeYear_yearOfDay day
  have inside := yearOfDay_inside day
  have first : 1 ≤ (yearOfDay day).1 := by
    simp only [yearOfDay]
    omega
  have yearEnd := daysBeforeYear_succ first
  have last : daysBeforeYear 400 = 145731 := rfl
  have whole : daysBeforeYear 401 = 146097 := rfl
  refine ⟨first, ?_, ?_, ?_⟩
  · by_contra beyond
    have order : daysBeforeYear 401 ≤ daysBeforeYear (yearOfDay day).1 :=
      daysBeforeYear_le (by decide) (by omega)
    omega
  · intro early
    have order : daysBeforeYear ((yearOfDay day).1 + 1) ≤ daysBeforeYear 400 :=
      daysBeforeYear_le (by omega) (by omega)
    omega
  · intro early
    by_contra late
    have order : daysBeforeYear 400 ≤ daysBeforeYear (yearOfDay day).1 :=
      daysBeforeYear_le (by decide) (by omega)
    omega

/-- A count of microseconds is in the calendar when it falls in one of the years 1 to 9999. -/
theorem yearOf_iff {micros : Int} :
    (yearOf micros < 1 ↔ micros < 0) ∧
      (9999 < yearOf micros ↔ (calendarMicros : Int) ≤ micros) := by
  have days : Int.fdiv micros (dayMicros : Int) = micros / 86400000000 :=
    Int.fdiv_eq_ediv_of_nonneg _ (by decide)
  have eras : Int.fdiv (micros / 86400000000) 146097 = micros / 86400000000 / 146097 :=
    Int.fdiv_eq_ediv_of_nonneg _ (by decide)
  have rest : Int.fmod (micros / 86400000000) 146097 = micros / 86400000000 % 146097 :=
    Int.fmod_eq_emod_of_nonneg _ (by decide)
  have inEra : (micros / 86400000000 % 146097).toNat < 146097 := by omega
  obtain ⟨first, last, late⟩ := yearOfDay_inEra inEra
  simp only [yearOf, days, eras, rest, calendarMicros]
  omega

theorem Moment.universal?_eq_none_iff {m : Moment} :
    m.universal? = none ↔
      yearOf m.universalMicros < 1 ∨ 9999 < yearOf m.universalMicros := by
  rw [yearOf_iff.1, yearOf_iff.2]
  constructor
  · intro gone
    by_contra inside
    have early : m.universalMicros.toNat < calendarMicros := by omega
    have found : m.universal? = some ⟨m.universalMicros.toNat, early⟩ := by
      apply universal?_eq_some_iff.mpr
      dsimp only
      omega
    rw [gone] at found
    cases found
  · intro outside
    cases found : m.universal? with
    | none => rfl
    | some t =>
      have count := universal?_eq_some_iff.mp found
      have inside := t.inCalendar
      omega

/-! ## The least stamp -/

section Stamps

variable {now stamp : Instant} {previous : Moment}

/-- Nothing is later than the last microsecond of the last day. -/
theorem Instant.le_of_last {last : Instant} (date : last.date = ⟨9999, 12, 31⟩)
    (time : last.timeOfDay = ⟨23, 59, 59, 999999⟩) : now ≤ last := by
  have ends : last.micros + 1 = calendarMicros := isLast_iff.mpr ⟨date, time⟩
  have inside := now.inCalendar
  show now.micros ≤ last.micros
  omega

/-- Behind a previous stamp there is no stamp when universal time has no reading for it, or its
last one. -/
theorem nextStamp?_moment_eq_none_iff :
    nextStamp? now (some previous) = none ↔
      yearOf previous.universalMicros < 1 ∨ 9999 < yearOf previous.universalMicros ∨
        ∃ last, previous.universal? = some last ∧
          last.date = ⟨9999, 12, 31⟩ ∧ last.timeOfDay = ⟨23, 59, 59, 999999⟩ := by
  have parts : nextStamp? now (some previous) =
      previous.universal?.bind fun before => nextStamp? now (some (.plain before)) := rfl
  rw [← or_assoc, ← Moment.universal?_eq_none_iff, parts, Option.bind_eq_none_iff]
  simp only [nextStamp?_eq_none_iff, Instant.isLast_iff]
  cases previous.universal? with
  | none => simp
  | some before => simp

/-- A stamp is found behind a reading of universal time. -/
theorem exists_of_nextStamp?_moment (found : nextStamp? now (some previous) = some stamp) :
    ∃ before, previous.universal? = some before ∧
      nextStamp? now (some (.plain before)) = some stamp := by
  obtain ⟨before, told, later⟩ := Option.bind_eq_some_iff.mp found
  exact ⟨before, told, later⟩

/-- A stamp is read as the present, or as the previous stamp with one microsecond carried. -/
theorem reading_of_nextStamp? {before : Instant}
    (later : nextStamp? now (some (.plain before)) = some stamp) :
    (stamp.date, stamp.timeOfDay) =
      if now ≤ before then followingReading before.date before.timeOfDay
      else (now.date, now.timeOfDay) := by
  have later : (if now ≤ before then before.next? else some now) = some stamp := later
  split at later
  · next late =>
    rw [if_pos late]
    exact Instant.reading_of_next? later
  · next ahead =>
    rw [if_neg ahead]
    cases later
    rfl

end Stamps

/-- **The stamp of a change is the least one behind the previous stamp and not before the
present.**  Where there is no previous stamp it is the present.  Else there is none exactly
when the previous stamp, told in universal time, falls in no year from 1 to 9999 or is the last
microsecond of the last of them; the present cannot be later than that one.  A stamp that is
found counts the larger of the present and one microsecond more than the previous stamp, and is
read as the present or as the previous stamp with one microsecond carried. -/
theorem least_stamp_behind_previous (now : Instant) :
    nextStamp? now none = some now ∧
    ∀ previous : Moment,
      (nextStamp? now (some previous) = none ↔
        yearOf previous.universalMicros < 1 ∨ 9999 < yearOf previous.universalMicros ∨
          ∃ last, previous.universal? = some last ∧
            last.date = ⟨9999, 12, 31⟩ ∧ last.timeOfDay = ⟨23, 59, 59, 999999⟩) ∧
      (∀ last : Instant,
        last.date = ⟨9999, 12, 31⟩ → last.timeOfDay = ⟨23, 59, 59, 999999⟩ → now ≤ last) ∧
      ∀ stamp, nextStamp? now (some previous) = some stamp →
        (stamp.micros : Int) = max (now.micros : Int) (previous.universalMicros + 1) ∧
        previous.universalMicros < stamp.micros ∧ now ≤ stamp ∧
        (∀ other : Instant, previous.universalMicros < other.micros → now ≤ other →
          stamp ≤ other) ∧
        ∃ before, previous.universal? = some before ∧
          (stamp.date, stamp.timeOfDay) =
            if now ≤ before then followingReading before.date before.timeOfDay
            else (now.date, now.timeOfDay) := by
  refine ⟨rfl, fun previous => ⟨nextStamp?_moment_eq_none_iff, ?_, ?_⟩⟩
  · intro last date time
    exact Instant.le_of_last date time
  · intro stamp found
    obtain ⟨before, told, later⟩ := exists_of_nextStamp?_moment found
    have count : (before.micros : Int) = previous.universalMicros :=
      Moment.universal?_eq_some_iff.mp told
    have micros : stamp.micros = max now.micros (before.micros + 1) := micros_of_nextStamp? later
    refine ⟨by omega, by omega, ?_, ?_, before, told, reading_of_nextStamp? later⟩
    · show now.micros ≤ stamp.micros
      omega
    · intro other behind present
      have present : now.micros ≤ other.micros := present
      show stamp.micros ≤ other.micros
      omega

/-- Half past five on a leap day, five and a half hours ahead of universal time and one
microsecond short: there it is still the day before, and one microsecond more carries the second,
the minute, the hour and the day. -/
theorem leap_day_behind_offset :
    let now : Instant := ⟨63859233600000000, by decide⟩
    let previous : Moment := ⟨⟨63971011799999999, by decide⟩, some 19800000000⟩
    let before : Instant := ⟨63970991999999999, by decide⟩
    let stamp : Instant := ⟨63970992000000000, by decide⟩
    previous.universal? = some before ∧ nextStamp? now (some previous) = some stamp ∧
      (before.date, before.timeOfDay) = (⟨2028, 2, 28⟩, ⟨23, 59, 59, 999999⟩) ∧
      (stamp.date, stamp.timeOfDay) = (⟨2028, 2, 29⟩, ⟨0, 0, 0, 0⟩) := by
  intro now previous before stamp
  have universal : previous.universal? = some before := by decide
  have found : nextStamp? now (some previous) = some stamp := by decide
  obtain ⟨-, behind⟩ := least_stamp_behind_previous now
  obtain ⟨-, -, told⟩ := behind previous
  obtain ⟨-, -, -, -, other, same, reading⟩ := told stamp found
  obtain rfl : before = other := Option.some.inj (universal.symm.trans same)
  have late : now ≤ before := by decide
  rw [if_pos late] at reading
  have date : (before.date, before.timeOfDay) =
      ((⟨2028, 2, 28⟩ : Date), (⟨23, 59, 59, 999999⟩ : TimeOfDay)) := by decide
  obtain ⟨day, time⟩ := Prod.mk.inj date
  rw [day, time] at reading
  exact ⟨universal, found, date, reading⟩

end EarningsLedger.Calendar
