import EarningsLedger.Calendar.Date

/-!
# Instants

An `Instant` is a reading of a calendar and a clock in the years 1 to 9999, to the
microsecond, and is kept as the microseconds since the year 1 began. The bound of the
calendar is part of the type, so an operation that could leave it says so with an
`Option`.
-/

namespace EarningsLedger.Calendar

def dayMicros : Nat := 86400000000

/-- The microseconds of the years 1 to 9999. -/
def calendarMicros : Nat := 315537897600000000

/-- The year that a number of microseconds from the year 1 falls into, beyond the
calendar too. -/
def yearOf (micros : Int) : Int :=
  let day := Int.fdiv micros (dayMicros : Int)
  let era := Int.fdiv day 146097
  era * 400 + ((yearOfDay (Int.fmod day 146097).toNat).1 : Int)

/-- A calendar and clock reading, to the microsecond. -/
structure Instant where
  micros : Nat
  inCalendar : micros < calendarMicros
  deriving DecidableEq, Repr

/-- A reading of a clock of twenty-four hours. -/
structure TimeOfDay where
  hour : Nat
  minute : Nat
  second : Nat
  micro : Nat
  deriving DecidableEq, Repr

/-- The microseconds from midnight to a clock reading. -/
def TimeOfDay.micros (time : TimeOfDay) : Nat :=
  ((time.hour * 60 + time.minute) * 60 + time.second) * 1000000 + time.micro

def TimeOfDay.exists? (time : TimeOfDay) : Bool :=
  time.hour < 24 && time.minute < 60 && time.second < 60 && time.micro < 1000000

namespace Instant

/-- The instant a number of microseconds after the year 1 began, if the calendar has it. -/
def ofMicros? (micros : Int) : Option Instant :=
  if h : 0 ≤ micros ∧ micros.toNat < calendarMicros then some ⟨micros.toNat, h.2⟩ else none

/-- The instant of a date and a clock reading, if both exist. -/
def ofParts? (date : Date) (time : TimeOfDay) : Option Instant :=
  if date.exists? && time.exists? then ofMicros? (date.dayNumber * dayMicros + time.micros)
  else none

def date (t : Instant) : Date := Date.ofDayNumber (t.micros / dayMicros)

def timeOfDay (t : Instant) : TimeOfDay :=
  let rest := t.micros % dayMicros
  ⟨rest / 3600000000, rest / 60000000 % 60, rest / 1000000 % 60, rest % 1000000⟩

/-- The instant a signed number of microseconds later, if the calendar has it. -/
def shift? (t : Instant) (micros : Int) : Option Instant := ofMicros? (t.micros + micros)

/-- The instant one microsecond later, if the calendar has it. -/
def next? (t : Instant) : Option Instant := t.shift? 1

instance : LE Instant := ⟨fun a b => a.micros ≤ b.micros⟩
instance : LT Instant := ⟨fun a b => a.micros < b.micros⟩
instance (a b : Instant) : Decidable (a ≤ b) := Nat.decLe _ _
instance (a b : Instant) : Decidable (a < b) := Nat.decLt _ _

/-- Instants with the same microseconds are the same. -/
theorem ext_micros {a b : Instant} (h : a.micros = b.micros) : a = b := by
  cases a
  cases b
  simp_all

/-- The microseconds of a date and of a clock reading give the instant back. -/
theorem micros_eq (t : Instant) :
    t.date.dayNumber * dayMicros + t.timeOfDay.micros = t.micros := by
  simp only [date, timeOfDay, TimeOfDay.micros, Date.dayNumber_ofDayNumber, dayMicros]
  omega

end Instant

/-- The first instant of the year 1970, from which numeric timestamps count. -/
def epochMicros : Nat := 62135596800000000

end EarningsLedger.Calendar
