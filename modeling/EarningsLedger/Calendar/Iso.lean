import EarningsLedger.Calendar.Moment
import EarningsLedger.Text.Digits

/-!
# Written moments

Moments are written year first, the date and the time of day apart by one character.
Stored stamps put a space there and always show six decimals; answers put a `T` there
and leave the decimals out when they are zero.
-/

namespace EarningsLedger.Calendar

open Text

/-! ## Writing -/

def Date.chars (date : Date) : List Char :=
  padDigits 4 date.year ++ '-' :: padDigits 2 date.month ++ '-' :: padDigits 2 date.day

def TimeOfDay.secondChars (time : TimeOfDay) : List Char :=
  padDigits 2 time.hour ++ ':' :: padDigits 2 time.minute ++ ':' :: padDigits 2 time.second

/-- The decimals of a second, after a point; none at all for a whole second. -/
def decimals (micro : Nat) : List Char :=
  if micro = 0 then [] else '.' :: padDigits 6 micro

/-- A stored stamp, always with six decimals. -/
def Instant.storedChars (t : Instant) : List Char :=
  t.date.chars ++ ' ' :: t.timeOfDay.secondChars ++ '.' :: padDigits 6 t.timeOfDay.micro

/-- A stored stamp, always with six decimals. -/
def Instant.storedText (t : Instant) : String := String.ofList t.storedChars

/-- A stamp to the second, as the database writes its own. -/
def Instant.secondText (t : Instant) : String :=
  String.ofList (t.date.chars ++ ' ' :: t.timeOfDay.secondChars)

/-- A stamp to the millisecond, as the database's trigger writes its own. -/
def Instant.milliText (t : Instant) : String :=
  String.ofList (t.date.chars ++ ' ' :: t.timeOfDay.secondChars ++
    '.' :: padDigits 3 (t.timeOfDay.micro / 1000))

/-- An instant with the given character between date and time of day. -/
def Instant.isoChars (middle : Char) (t : Instant) : List Char :=
  t.date.chars ++ middle :: t.timeOfDay.secondChars ++ decimals t.timeOfDay.micro

/-- A distance from universal time, with seconds and decimals only when needed. -/
def offsetChars (offset : Int) : List Char :=
  let n := offset.natAbs
  let seconds := n / 1000000 % 60
  let tail :=
    if n % 60000000 = 0 then [] else ':' :: padDigits 2 seconds ++ decimals (n % 1000000)
  (if offset < 0 then '-' else '+') ::
    padDigits 2 (n / 3600000000) ++ ':' :: padDigits 2 (n / 60000000 % 60) ++ tail

/-- A moment with the given character between date and time of day. -/
def Moment.chars (middle : Char) (m : Moment) : List Char :=
  m.reading.isoChars middle ++ (m.offset.map offsetChars).getD []

def Moment.isoText (m : Moment) : String := String.ofList (m.chars 'T')

def Instant.isoText (t : Instant) : String := (Moment.plain t).isoText

/-! ## Digits in front -/

def twoDigits : List Char → Option (Nat × List Char)
  | a :: b :: rest =>
    if isDigit a && isDigit b then some (digitValue a * 10 + digitValue b, rest) else none
  | _ => none

def fourDigits (cs : List Char) : Option (Nat × List Char) :=
  (twoDigits cs).bind fun high => (twoDigits high.2).map fun low => (high.1 * 100 + low.1, low.2)

/-- The microseconds that the digits of a fraction stand for; digits after the sixth are
dropped. -/
def microsOf (digits : List Char) : Nat :=
  foldDigits 0 (padRight 6 '0' (digits.take 6))

end EarningsLedger.Calendar
