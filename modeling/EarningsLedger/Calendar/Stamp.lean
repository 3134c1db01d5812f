import EarningsLedger.Calendar.Iso
import EarningsLedger.Text.Quoted

/-!
# Stamps

A stamp is a moment in writing. Its date names a day of a month or a day of a week, with
hyphens or without; any character may stand behind the date; the time of day may stop
after any part and may be followed by a distance from universal time.
`Moment.readStamp` tells a text that is no stamp from one whose parts do not exist.
-/

namespace EarningsLedger.Calendar

open Text

/-- Why a text is no moment. -/
inductive StampTrouble where
  | unreadable
  | offset (micros : Int)
  | year (year : Nat)
  | month
  | day
  | hour
  | minute
  | second
  deriving DecidableEq, Repr

/-- The parts of a span of time that are not zero, each under its name. -/
def spanText (micros : Int) : String :=
  let part (name : String) (n : Int) : List String :=
    if n = 0 then [] else [name ++ "=" ++ intText n]
  "datetime.timedelta(" ++
    String.intercalate ", "
      (part "days" (Int.fdiv micros dayMicros) ++
        part "seconds" (Int.fmod micros dayMicros / 1000000) ++
        part "microseconds" (Int.fmod micros 1000000)) ++ ")"

/-- The sentence of a trouble with a text. -/
def StampTrouble.message (text : String) : StampTrouble → String
  | unreadable => "Invalid isoformat string: " ++ String.ofList (quoted text.toList)
  | offset micros =>
    "offset must be a timedelta strictly between -timedelta(hours=24) and " ++
      "timedelta(hours=24), not " ++ spanText micros ++ "."
  | year n => "year " ++ natText n ++ " is out of range"
  | month => "month must be in 1..12"
  | day => "day is out of range for month"
  | hour => "hour must be in 0..23"
  | minute => "minute must be in 0..59"
  | second => "second must be in 0..59"

/-! ## Weeks -/

/-- The day of the week that a year begins with; Monday is day 0. -/
def firstWeekday (year : Nat) : Nat := daysBeforeYear year % 7

/-- The Monday of the first week of a year, which is the week with the first Thursday. -/
def firstMonday (year : Nat) : Nat :=
  if firstWeekday year ≤ 3 then daysBeforeYear year - firstWeekday year
  else daysBeforeYear year + 7 - firstWeekday year

def hasLongYear (year : Nat) : Bool :=
  firstWeekday year == 3 || (firstWeekday year == 2 && isLeap year)

/-- The date of a day of a week. A week of the year 0 is in no month. -/
def weekDate (year week day : Nat) : Option Date :=
  if 1 ≤ week ∧ (week ≤ 52 ∨ (week = 53 ∧ hasLongYear year)) ∧ 1 ≤ day ∧ day ≤ 7 then
    if year = 0 then some ⟨1, 0, 1⟩
    else some (Date.ofDayNumber (firstMonday year + (week - 1) * 7 + (day - 1)))
  else none

/-! ## Dates -/

/-- The length of the date in front. A week's digits go in pairs with those of the time of
day, and a hyphen behind a week is a divider when two digits follow it. -/
def dateLength (cs : List Char) : Nat :=
  if cs.length = 7 then 7
  else if cs[4]? = some '-' then
    if cs[5]? = some 'W' then
      if cs[8]? = some '-' ∧ ¬ (cs[10]?).any isDigit then 10 else 8
    else 10
  else if cs[4]? = some 'W' then
    let digits := ((cs.drop 7).takeWhile isDigit).length
    if digits < 2 then 7 + digits else if digits % 2 = 1 then 7 else 8
  else 8

/-- What follows a part of a date, behind a hyphen when the date has hyphens. -/
def behindHyphen (hyphens : Bool) : List Char → Option (List Char)
  | '-' :: rest => if hyphens then some rest else none
  | cs => if hyphens then none else some cs

def readDate (cs : List Char) : Option Date :=
  (fourDigits cs).bind fun year =>
    let hyphens := year.2.head? == some '-'
    match if hyphens then year.2.drop 1 else year.2 with
    | 'W' :: rest =>
      (twoDigits rest).bind fun week =>
        if week.2 = [] then weekDate year.1 week.1 1
        else
          match behindHyphen hyphens week.2 with
          | some [c] => if isDigit c then weekDate year.1 week.1 (digitValue c) else none
          | _ => none
    | rest =>
      (twoDigits rest).bind fun month =>
        ((behindHyphen hyphens month.2).bind twoDigits).bind fun day =>
          if day.2 = [] then some ⟨year.1, month.1, day.1⟩ else none

/-! ## Times of day -/

/-- The microseconds in front, and whether they are all there is. -/
def readDecimals (cs : List Char) : Option (Nat × Bool) :=
  let told := cs.take 6
  if told.all isDigit then
    some (microsOf told, ((cs.drop 6).dropWhile isDigit).isEmpty)
  else none

/-- The parts in front, `left` of them at most, with the microseconds behind them, and
whether they are all there is. The parts are divided by colons if the first is; a single
character may be left. -/
def readParts : (left : Nat) → (colons : Option Bool) → List Char → Option (List Nat × Nat × Bool)
  | 0, _, cs => (readDecimals cs).map fun found => ([], found)
  | left + 1, colons, cs =>
    (twoDigits cs).bind fun part =>
      match part.2 with
      | [] => some ([part.1], 0, true)
      | [_] => some ([part.1], 0, false)
      | c :: rest =>
        let divided := colons.getD (c == ':')
        let further :=
          if divided && c == ':' then readParts left (some divided) rest
          else if c = '.' ∨ c = ',' then (readDecimals rest).map fun found => ([], found)
          else if divided then none
          else readParts left (some divided) (c :: rest)
        further.map fun found => (part.1 :: found.1, found.2)

/-- The clock reading in front, and whether it is all there is. -/
def readClock (cs : List Char) : Option (TimeOfDay × Bool) :=
  (readParts 3 none cs).map fun found =>
    (⟨found.1.getD 0 0, found.1.getD 1 0, found.1.getD 2 0, found.2.1⟩, found.2.2)

/-- Splits a time of day from the distance behind it. -/
def splitOffset (cs : List Char) : List Char × Option (Char × List Char) :=
  let time := cs.takeWhile fun c => c != '+' && c != '-' && c != 'Z'
  match cs.drop time.length with
  | [] => (time, none)
  | mark :: rest => (time, some (mark, rest))

/-- The microseconds of a distance from universal time. One below a second is none. -/
def readOffset (cs : List Char) : Option Nat :=
  (readClock cs).bind fun clock =>
    if clock.2 then some (if clock.1.micros < 1000000 then 0 else clock.1.micros) else none

/-- A clock reading and the distance behind it. A clock reading without a distance must be
all there is. -/
def readTime (cs : List Char) : Option (TimeOfDay × Option Int) :=
  let parts := splitOffset cs
  (readClock parts.1).bind fun clock =>
    match parts.2 with
    | none => if clock.2 then some (clock.1, none) else none
    | some ('Z', rest) => if rest = [] then some (clock.1, some 0) else none
    | some (mark, rest) =>
      (readOffset rest).map fun micros =>
        (clock.1, some (if mark = '-' then -Int.ofNat micros else Int.ofNat micros))

/-! ## Moments -/

/-- What is wrong with a date, if anything is. -/
def Date.trouble? (date : Date) : Option StampTrouble :=
  if date.year < 1 ∨ 9999 < date.year then some (.year date.year)
  else if date.month < 1 ∨ 12 < date.month then some .month
  else if date.day < 1 ∨ monthLength date.year date.month < date.day then some .day
  else none

/-- What is wrong with a clock reading, if anything is. -/
def TimeOfDay.trouble? (time : TimeOfDay) : Option StampTrouble :=
  if 24 ≤ time.hour then some .hour
  else if 60 ≤ time.minute then some .minute
  else if 60 ≤ time.second then some .second
  else none

/-- What is wrong with a distance from universal time, if anything is. -/
def offsetTrouble? (offset : Option Int) : Option StampTrouble :=
  offset.bind fun micros => if micros.natAbs < dayMicros then none else some (.offset micros)

/-- The date, clock reading and distance of a text; a date alone is midnight. -/
def stampParts (cs : List Char) : Option (Date × TimeOfDay × Option Int) :=
  let split := dateLength cs
  (readDate (cs.take split)).bind fun date =>
    match cs.drop split with
    | [] => some (date, ⟨0, 0, 0, 0⟩, none)
    | _ :: rest => (readTime rest).map fun time => (date, time)

def Moment.readStamp (text : String) : Except StampTrouble Moment :=
  match stampParts text.toList with
  | none => .error .unreadable
  | some (date, time, offset) =>
    match (offsetTrouble? offset).or (date.trouble?.or time.trouble?) with
    | some trouble => .error trouble
    | none =>
      match Instant.ofParts? date time with
      | some reading => .ok ⟨reading, offset⟩
      | none => .error .unreadable

/-- Reads a moment, if a text is one. -/
def Moment.read? (text : String) : Option Moment := (Moment.readStamp text).toOption

end EarningsLedger.Calendar
