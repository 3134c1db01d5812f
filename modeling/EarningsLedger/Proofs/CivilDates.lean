import EarningsLedger.Calendar.Moment

/-!
# Instants fall on dates of the calendar

Splitting the microseconds of an instant yields a day number below that of the
first of January of the year 10000.  This module shows that such a day number
always becomes a date that exists: the year lies in 1 to 9999, the walk over the
month lengths stops inside the year, and the day lies inside its month.  The clock
reading that is left exists for the simpler reason that it is a remainder.

The stamp of a change is then told by its microseconds, and the last instant of the calendar
is the only one that no stamp lies behind.
-/

namespace EarningsLedger.Calendar

/-! ## Months of a year -/

/-- A walk over month lengths that starts inside them stops in one of the months,
on one of its days. -/
theorem monthOfDay_inside {lengths : List Nat} {day : Nat} (inside : day < daysOf lengths) :
    (monthOfDay lengths day).1 < lengths.length ∧
      (monthOfDay lengths day).2 < lengths.getD (monthOfDay lengths day).1 0 := by
  induction lengths generalizing day with
  | nil => exact absurd inside (Nat.not_lt_zero day)
  | cons length rest ih =>
    by_cases here : day < length
    · simp [monthOfDay, here]
    · have total : daysOf (length :: rest) = length + daysOf rest := rfl
      have later : day - length < daysOf rest := by omega
      obtain ⟨month, within⟩ := ih later
      simp only [monthOfDay, here, if_false, List.length_cons, List.getD_cons_succ]
      exact ⟨by omega, within⟩

theorem length_monthLengths (year : Nat) : (monthLengths year).length = 12 := rfl

theorem daysOf_monthLengths (year : Nat) :
    daysOf (monthLengths year) = if isLeap year then 366 else 365 := by
  unfold monthLengths
  cases isLeap year <;> rfl

theorem monthLength_le (year month : Nat) : monthLength year month ≤ 31 := by
  cases month with
  | zero => exact Nat.zero_le 31
  | succ k =>
    simp only [monthLength, List.getD_eq_getElem?_getD]
    cases found : (monthLengths year)[k]? with
    | none => exact Nat.zero_le 31
    | some length =>
      have member := List.mem_of_getElem? found
      cases leap : isLeap year <;>
        simp only [monthLengths, leap, if_true, Bool.false_eq_true, if_false, List.mem_cons,
          List.not_mem_nil, or_false] at member <;>
        simp only [Option.getD_some] <;> omega

/-! ## Years -/

/-- The last day of a cycle of four years belongs to a leap year, also where the
cycle closes a century: only then is the century the fourth of its era. -/
theorem isLeap_of_last_of_quad {era century quad : Nat}
    (closing : quad = 24 → century = 3) (short : quad ≤ 24) :
    isLeap (400 * era + 100 * century + 4 * quad + 3 + 1) = true := by
  have fourth : (400 * era + 100 * century + 4 * quad + 3 + 1) % 4 = 0 := by omega
  have hundredth : (400 * era + 100 * century + 4 * quad + 3 + 1) % 100 = 0 →
      (400 * era + 100 * century + 4 * quad + 3 + 1) % 400 = 0 := by omega
  simp only [isLeap, Bool.and_eq_true, Bool.or_eq_true, beq_iff_eq, bne_iff_ne]
  exact ⟨fourth, (Nat.eq_zero_or_pos _).elim (fun whole => .inr (hundredth whole))
    fun rest => .inl (by omega)⟩

/-- The day found inside a year is one of that year's days. -/
theorem yearOfDay_inside (day : Nat) :
    (yearOfDay day).2 < daysOf (monthLengths (yearOfDay day).1) := by
  rw [daysOf_monthLengths]
  by_cases short : (yearOfDay day).2 < 365
  · split <;> omega
  · have leap : isLeap (yearOfDay day).1 = true := by
      simp only [yearOfDay] at short ⊢
      have last : min ((day % 146097 - min (day % 146097 / 36524) 3 * 36524) % 1461 / 365) 3 = 3 := by
        omega
      rw [last]
      exact isLeap_of_last_of_quad (by omega) (by omega)
    rw [if_pos leap]
    simp only [yearOfDay]
    omega

/-- A day before the year 10000 falls in one of the years 1 to 9999. -/
theorem yearOfDay_bounds {day : Nat} (early : day < 3652059) :
    1 ≤ (yearOfDay day).1 ∧ (yearOfDay day).1 ≤ 9999 := by
  have sum := daysBeforeYear_yearOfDay day
  constructor
  · simp only [yearOfDay]
    omega
  · simp only [daysBeforeYear] at sum
    omega

/-! ## Dates -/

namespace Date

theorem exists?_iff {date : Date} :
    date.exists? = true ↔
      1 ≤ date.year ∧ date.year ≤ 9999 ∧ 1 ≤ date.day ∧
        date.day ≤ monthLength date.year date.month := by
  simp only [exists?, Bool.and_eq_true, decide_eq_true_eq, and_assoc]

/-- A day number before the year 10000 makes a date that exists. -/
theorem exists_ofDayNumber {day : Nat} (early : day < 3652059) :
    (ofDayNumber day).exists? = true ∧
      1 ≤ (ofDayNumber day).month ∧ (ofDayNumber day).month ≤ 12 := by
  have year := yearOfDay_bounds early
  obtain ⟨month, within⟩ := monthOfDay_inside (yearOfDay_inside day)
  rw [length_monthLengths] at month
  simp only [exists?_iff, ofDayNumber, monthLength]
  omega

end Date

theorem TimeOfDay.exists?_iff {time : TimeOfDay} :
    time.exists? = true ↔
      time.hour < 24 ∧ time.minute < 60 ∧ time.second < 60 ∧ time.micro < 1000000 := by
  simp only [TimeOfDay.exists?, Bool.and_eq_true, decide_eq_true_eq, and_assoc]

namespace Instant

/-- The date of an instant exists. -/
theorem date_exists (t : Instant) :
    t.date.exists? = true ∧ 1 ≤ t.date.month ∧ t.date.month ≤ 12 := by
  have bound := t.inCalendar
  simp only [calendarMicros] at bound
  exact Date.exists_ofDayNumber (by simp only [dayMicros]; omega)

/-- The clock reading of an instant exists. -/
theorem timeOfDay_exists (t : Instant) : t.timeOfDay.exists? = true := by
  simp only [TimeOfDay.exists?_iff, timeOfDay, dayMicros]
  omega

/-- Date and clock reading make up the instant again. -/
theorem ofParts?_date_timeOfDay (t : Instant) : ofParts? t.date t.timeOfDay = some t := by
  have sum : (t.date.dayNumber * dayMicros + t.timeOfDay.micros : Int) = t.micros := by
    exact_mod_cast micros_eq t
  simp only [ofParts?, t.date_exists.1, t.timeOfDay_exists, Bool.and_self, if_true, sum, ofMicros?]
  rw [dif_pos ⟨Int.natCast_nonneg _, by simpa using t.inCalendar⟩]
  simp

/-- An instant is told by its microseconds. -/
theorem ofMicros?_eq_some_iff {n : Int} {t : Instant} :
    ofMicros? n = some t ↔ (t.micros : Int) = n := by
  unfold ofMicros?
  constructor
  · intro found
    split at found
    · cases found
      dsimp only
      omega
    · cases found
  · rintro rfl
    have inside : 0 ≤ (t.micros : Int) ∧ (t.micros : Int).toNat < calendarMicros :=
      ⟨Int.natCast_nonneg _, by simpa using t.inCalendar⟩
    rw [dif_pos inside]
    exact congrArg some (ext_micros (Int.toNat_natCast _))

end Instant

/-! ## Stamps of changes -/

theorem Instant.micros_of_next? {before stamp : Instant} (next : before.next? = some stamp) :
    stamp.micros = before.micros + 1 := by
  unfold Instant.next? Instant.shift? Instant.ofMicros? at next
  split at next
  · cases next
    dsimp only
    omega
  · cases next

/-- The last instant of the calendar. -/
def Instant.IsLast (t : Instant) : Prop := t.micros + 1 = calendarMicros

instance (t : Instant) : Decidable t.IsLast := inferInstanceAs (Decidable (_ = _))

theorem Instant.next?_eq_none_iff {t : Instant} : t.next? = none ↔ t.IsLast := by
  have inside := t.inCalendar
  unfold next? shift? ofMicros? IsLast
  split
  · next there =>
    have below := there.2
    simp only [reduceCtorEq, false_iff]
    omega
  · next gone =>
    simp only [true_iff]
    omega

/-- No stamp is left behind a previous one exactly when that is the last instant, whatever
the clock shows. -/
theorem nextStamp?_eq_none_iff {now before : Instant} :
    nextStamp? now (some (.plain before)) = none ↔ before.IsLast := by
  have inside := now.inCalendar
  show (if now ≤ before then before.next? else some now) = none ↔ _
  split
  · exact Instant.next?_eq_none_iff
  · next ahead =>
    have ahead : ¬ now.micros ≤ before.micros := ahead
    simp only [reduceCtorEq, false_iff, Instant.IsLast]
    omega

/-- The stamp of a change is the later one of the present and of the instant behind the
previous stamp. -/
theorem micros_of_nextStamp? {now before stamp : Instant}
    (later : nextStamp? now (some (.plain before)) = some stamp) :
    stamp.micros = max now.micros (before.micros + 1) := by
  have later : (if now ≤ before then before.next? else some now) = some stamp := later
  split at later
  · next behind =>
    have behind : now.micros ≤ before.micros := behind
    have micros := Instant.micros_of_next? later
    omega
  · next ahead =>
    have ahead : ¬ now.micros ≤ before.micros := ahead
    obtain rfl := Option.some.inj later
    omega

/-- The stamp of a change lies behind the previous one, and not before the present. -/
theorem later_of_nextStamp? {now before stamp : Instant}
    (later : nextStamp? now (some (.plain before)) = some stamp) :
    before < stamp ∧ now ≤ stamp := by
  have micros := micros_of_nextStamp? later
  show before.micros < stamp.micros ∧ now.micros ≤ stamp.micros
  omega

end EarningsLedger.Calendar
