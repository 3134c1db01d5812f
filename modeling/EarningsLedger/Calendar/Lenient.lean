import EarningsLedger.Calendar.Iso
import EarningsLedger.Number.Numeral

/-!
# Moments in request fields

A field that holds a moment may be filled with a written moment, with a date, or with a
number that counts seconds from 1970. A number beyond twenty thousand million counts
milliseconds instead. What cannot be read as a moment is read as a date, and the
complaint is about the date.

Texts are read byte by byte: a character here is one byte of the text.
-/

namespace EarningsLedger.Calendar.Lenient

open Number Text

/-- Why a value is no moment. -/
inductive Trouble where
  | tooShort
  | yearDigit
  | dateSeparator
  | monthDigit
  | dayDigit
  | noSuchMonth
  | noSuchDay
  | extraCharacters
  | tooEarly
  | tooLate
  | missingNumber
  | yearZero
  deriving DecidableEq, Repr

/-! ## Counted moments -/

def millisAbove : Int := 20000000000

/-- The seconds from 1970 to the year 1600. -/
def firstSecond : Int := -11676096000

/-- The seconds from 1970 to the last of the year 9999. -/
def lastSecond : Int := 253402300799

def splitCount (count : Int) : Int × Int :=
  if millisAbove < count ∨ count < -millisAbove then
    (Int.fdiv count 1000, Int.fmod count 1000 * 1000)
  else (count, 0)

/-- The moment of a count and microseconds to be added, in universal time. -/
def ofCount (count micros : Int) : Except Trouble Moment :=
  let split := splitCount count
  let total := split.2 + micros
  let second := split.1 + total / 1000000
  if second < firstSecond then .error .tooEarly
  else if lastSecond < second then .error .tooLate
  else
    match Instant.ofMicros? ((epochMicros : Int) + second * 1000000 + total % 1000000) with
    | some reading => .ok ⟨reading, some 0⟩
    | none => .error .tooLate

/-- The fraction `num / den` as microseconds, the product rounded like a binary number
before it is rounded to an integer. -/
def fractionMicros (num den : Nat) : Nat :=
  match Binary64.ofRatio false (num * 1000000) den with
  | .finite _ mantissa exponent =>
    let value := Binary64.ratio mantissa exponent
    roundHalfUp value.1 value.2
  | _ => 0

/-- The moment a binary number counts to. The fraction of a negative number is added to
the second below it as if the number were positive. -/
def ofFloat : Binary64 → Except Trouble Moment
  | .nan => .error .missingNumber
  | .infinite negative => .error (if negative then .tooEarly else .tooLate)
  | .finite negative mantissa exponent =>
    let value := Binary64.ratio mantissa exponent
    let whole : Int := Int.ofNat (value.1 / value.2)
    let rest := value.1 % value.2
    let floor := if negative then (if rest = 0 then -whole else -whole - 1) else whole
    ofCount floor (fractionMicros rest value.2)

/-- The largest and least integers that count as they are; beyond them an integer is
rounded like a binary number first. -/
def ofInt (n : Int) : Except Trouble Moment :=
  if -9223372036854775808 ≤ n ∧ n ≤ 9223372036854775807 then ofCount n 0
  else ofFloat (.ofRatio (decide (n < 0)) n.natAbs 1)

/-! ## Written moments -/

/-- A digit in front, or the given complaint. -/
def digit (trouble : Trouble) : List Char → Except Trouble (Nat × List Char)
  | c :: rest => if isDigit c then .ok (digitValue c, rest) else .error trouble
  | [] => .error trouble

/-- Two digits in front, or the given complaint. -/
def pair (trouble : Trouble) (cs : List Char) : Except Trouble (Nat × List Char) := do
  let high ← digit trouble cs
  let low ← digit trouble high.2
  pure (high.1 * 10 + low.1, low.2)

def hyphen : List Char → Except Trouble (List Char)
  | '-' :: rest => .ok rest
  | _ => .error .dateSeparator

/-- A date in front, and what follows it. -/
def date (cs : List Char) : Except Trouble (Date × List Char) := do
  if cs.length < 10 then throw .tooShort
  let century ← pair .yearDigit cs
  let year ← pair .yearDigit century.2
  let month ← pair .monthDigit (← hyphen year.2)
  let day ← pair .dayDigit (← hyphen month.2)
  let found : Date := ⟨century.1 * 100 + year.1, month.1, day.1⟩
  if month.1 < 1 ∨ 12 < month.1 then throw .noSuchMonth
  if day.1 < 1 ∨ monthLength found.year found.month < day.1 then throw .noSuchDay
  pure (found, day.2)

/-- A number of two digits below a bound, in front. -/
def below (bound : Nat) (cs : List Char) : Option (Nat × List Char) :=
  (twoDigits cs).bind fun found => if found.1 < bound then some found else none

/-- The seconds and decimals behind an hour and a minute. -/
def seconds : List Char → Option (Nat × Nat × List Char)
  | ':' :: rest =>
    (below 60 rest).bind fun second =>
      match second.2 with
      | c :: rest =>
        if c = '.' ∨ c = ',' then
          let digits := spanDigits rest
          if digits.1 = [] then none else some (second.1, microsOf digits.1, digits.2)
        else some (second.1, 0, c :: rest)
      | [] => some (second.1, 0, [])
  | rest => some (0, 0, rest)

def timeOfDay (cs : List Char) : Option (TimeOfDay × List Char) :=
  (below 24 cs).bind fun hour =>
    match hour.2 with
    | ':' :: rest =>
      (below 60 rest).bind fun minute =>
        (seconds minute.2).map fun tail => (⟨hour.1, minute.1, tail.1, tail.2.1⟩, tail.2.2)
    | _ => none

/-- A distance in hours and minutes, to the end. -/
def distance (negative : Bool) (cs : List Char) : Option Int :=
  (twoDigits cs).bind fun hour =>
    (below 60 (if hour.2.head? = some ':' then hour.2.drop 1 else hour.2)).bind fun minute =>
      let micros := (Int.ofNat hour.1 * 60 + Int.ofNat minute.1) * 60000000
      if minute.2 = [] ∧ hour.1 < 24 then some (if negative then -micros else micros) else none

/-- The distance from universal time behind a time of day, to the end. The minus sign may
be the mathematical one. -/
def zone : List Char → Option (Option Int)
  | [] => some none
  | ['Z'] => some (some 0)
  | ['z'] => some (some 0)
  | '+' :: rest => (distance false rest).map some
  | '-' :: rest => (distance true rest).map some
  | '\xe2' :: '\x88' :: '\x92' :: rest => (distance true rest).map some
  | _ => none

/-- The characters that may stand between a date and a time of day. -/
def isMiddle (c : Char) : Bool := c == 'T' || c == 't' || c == ' ' || c == '_'

/-- The reading of a date and a time of day. -/
def readingOf (found : Date) (time : TimeOfDay) : Except Trouble Instant :=
  (Instant.ofParts? found time).elim (.error .yearZero) .ok

def written? (cs : List Char) : Option (Except Trouble Moment) :=
  match date cs with
  | .ok (found, middle :: rest) =>
    if isMiddle middle then
      (timeOfDay rest).bind fun time =>
        (zone time.2).map fun offset => (readingOf found time.1).map fun r => ⟨r, offset⟩
    else none
  | _ => none

/-- The integer of a text, with a sign, when it fits in 64 bits. -/
def wordInt? (cs : List Char) : Option Int :=
  let signed := Numeral.sign cs
  (readNat signed.2).bind fun n =>
    let value := if signed.1 then -Int.ofNat n else Int.ofNat n
    if -9223372036854775808 ≤ value ∧ value ≤ 9223372036854775807 then some value else none

/-- The moment a written number with a fraction counts to. -/
def ofWrittenFloat : Binary64 → Except Trouble Moment
  | .finite negative mantissa exponent =>
    let value := Binary64.ratio mantissa exponent
    let scaled :=
      if millisAbove * (value.2 : Int) < value.1 then
        Binary64.ofRatio negative value.1 (value.2 * 1000)
      else .finite negative mantissa exponent
    match scaled with
    | .finite negative mantissa exponent =>
      let value := Binary64.ratio mantissa exponent
      let whole : Int := Int.ofNat (value.1 / value.2)
      let rest := value.1 % value.2
      if negative ∧ rest ≠ 0 then ofCount (-whole - 1) (fractionMicros (value.2 - rest) value.2)
      else ofCount (if negative then -whole else whole) (fractionMicros rest value.2)
    | other => ofFloat other
  | other => ofFloat other

def counted? (cs : List Char) : Option (Except Trouble Moment) :=
  match wordInt? cs with
  | some n => some (ofCount n 0)
  | none =>
    if cs.all isDigit then none
    else (Numeral.read cs).map fun numeral => ofWrittenFloat numeral.toBinary64

/-- Midnight of a date, or the complaint about it. -/
def dateAlone (cs : List Char) : Except Trouble Moment :=
  match date cs with
  | .ok (found, []) => (readingOf found ⟨0, 0, 0, 0⟩).map Moment.plain
  | .ok _ => countedDate .extraCharacters
  | .error trouble => countedDate trouble
where
  countedDate (trouble : Trouble) : Except Trouble Moment :=
    match wordInt? cs with
    | some n => ofCount n 0
    | none => .error trouble

def ofChars (cs : List Char) : Except Trouble Moment :=
  match written? cs with
  | some result => result
  | none =>
    match counted? cs with
    | some (.ok m) => .ok m
    | _ => dateAlone cs

def ofText (s : String) : Except Trouble Moment :=
  ofChars (s.toUTF8.toList.map fun b => Char.ofNat b.toNat)

def ofBytes (data : List UInt8) : Except Trouble Moment :=
  ofChars (data.map fun b => Char.ofNat b.toNat)

end EarningsLedger.Calendar.Lenient
