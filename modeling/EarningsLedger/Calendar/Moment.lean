import EarningsLedger.Calendar.Instant

/-!
# Moments

A moment is a calendar and clock reading together with the distance of that clock from
universal time, when it is known. A moment without a known distance is taken to be in
universal time wherever the two are compared.
-/

namespace EarningsLedger.Calendar

/-- A clock reading, and how far its clock is ahead of universal time, in microseconds. -/
structure Moment where
  reading : Instant
  offset : Option Int
  deriving DecidableEq, Repr

namespace Moment

/-- A reading without a known distance from universal time. -/
def plain (t : Instant) : Moment := ⟨t, none⟩

/-- The reading of a clock in universal time at the same moment, if the calendar has it. -/
def universal? (m : Moment) : Option Instant :=
  match m.offset with
  | none => some m.reading
  | some offset => m.reading.shift? (-offset)

end Moment

/-- The time stamp of a change: the present, or one microsecond after the previous stamp
when the present is not later than it. There is none when the previous stamp, or its
successor, is outside the calendar. -/
def nextStamp? (now : Instant) : Option Moment → Option Instant
  | none => some now
  | some previous =>
    previous.universal?.bind fun before => if now ≤ before then before.next? else some now

end EarningsLedger.Calendar
