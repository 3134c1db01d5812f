import EarningsLedger.Calendar.Iso
import EarningsLedger.Number.FloatText
import EarningsLedger.Text.Quoted
import EarningsLedger.Value.Basic

/-!
# Text of values

A value has two texts. `display` is what a message shows, with a text as it is;
`quotedChars` marks where each text begins and ends, and is used for everything inside
a collection. `kindName` names the sort of a value in complaints about it.

Both texts are there for every value. A program can make them only where `isShort` says so,
and where its stack has room for `depth` levels of nesting.
-/

namespace EarningsLedger

open Calendar Number Text

namespace Value

def kindName : Value → String
  | null => "NoneType"
  | bool _ => "bool"
  | int _ => "int"
  | float _ => "float"
  | decimal _ => "Decimal"
  | text _ => "str"
  | bytes _ => "bytes"
  | moment _ => "datetime"
  | draft _ => "EarningCreate"
  | list _ => "list"
  | dict _ => "dict"

/-- The name of a value's sort, behind the family it belongs to. -/
def fullKindName : Value → String
  | decimal _ => "decimal.Decimal"
  | moment _ => "datetime.datetime"
  | other => other.kindName

def joined (separator : String) (parts : List (List Char)) : List Char :=
  (parts.intersperse separator.toList).flatten

/-- The parts of a span of time that are not zero, by name. -/
def spanParts (span : Int) : List (List Char) :=
  let days := Int.fdiv span (dayMicros : Int)
  let rest := Int.fmod span (dayMicros : Int)
  let named := [("days=", days), ("seconds=", rest / 1000000), ("microseconds=", rest % 1000000)]
  (named.filter fun part => part.2 != 0).map fun part => part.1.toList ++ intDigits part.2

/-- A distance from universal time in a quoted moment. -/
def zoneChars (offset : Int) : List Char :=
  if offset = 0 then "datetime.timezone.utc".toList
  else
    "datetime.timezone(datetime.timedelta(".toList ++ joined ", " (spanParts offset) ++ "))".toList

/-- A moment in quoted form: its parts in order, without the zeros behind the minute. -/
def quotedMoment (m : Moment) : List Char :=
  let date := m.reading.date
  let time := m.reading.timeOfDay
  let small :=
    if time.micro != 0 then [time.second, time.micro]
    else if time.second != 0 then [time.second] else []
  let numbers := [date.year, date.month, date.day, time.hour, time.minute] ++ small
  let zone := (m.offset.map fun offset => ["tzinfo=".toList ++ zoneChars offset]).getD []
  "datetime.datetime(".toList ++ joined ", " (numbers.map natDigits ++ zone) ++ [')']

/-- The fields of a draft, with a separator between them. -/
def draftChars (separator : String) (d : Draft) : List Char :=
  joined separator
    [("miner_id=".toList ++ intDigits d.miner.val), ("pool_id=".toList ++ intDigits d.pool.val),
     ("challenge_id=".toList ++ intDigits d.challenge.val),
     ("amount=".toList ++ intDigits d.amount.val)]

mutual

/-- The text of a value inside a collection. -/
def quotedChars : Value → List Char
  | null => "None".toList
  | bool b => (if b then "True" else "False").toList
  | int n => intDigits n
  | float x => x.chars messageStyle
  | decimal d => "Decimal('".toList ++ d.chars ++ "')".toList
  | text s => quoted s.toList
  | bytes data => quotedBytes data
  | moment m => quotedMoment m
  | draft d => "EarningCreate(".toList ++ draftChars ", " d ++ [')']
  | list items => '[' :: joined ", " (quotedItems items) ++ [']']
  | dict entries => '\x7b' :: joined ", " (quotedEntries entries) ++ ['\x7d']

/-- The texts of the items of a list. -/
def quotedItems : List Value → List (List Char)
  | [] => []
  | item :: rest => quotedChars item :: quotedItems rest

/-- The texts of the entries of a dictionary. -/
def quotedEntries : List (Value × Value) → List (List Char)
  | [] => []
  | (key, value) :: rest =>
    (quotedChars key ++ ':' :: ' ' :: quotedChars value) :: quotedEntries rest

end

/-- The text of a value in a message. -/
def displayChars : Value → List Char
  | text s => s.toList
  | decimal d => d.chars
  | moment m => m.chars ' '
  | draft d => draftChars " " d
  | other => quotedChars other

/-- The text of a value in a message. -/
def display (v : Value) : String := String.ofList v.displayChars

def quotedText (v : Value) : String := String.ofList v.quotedChars

/-! ## What texts can be made -/

mutual

/-- Whether a text can show all integers of a value. -/
def isShort : Value → Bool
  | int n => Text.isShort n
  | list items => itemsShort items
  | dict entries => entriesShort entries
  | _ => true

def itemsShort : List Value → Bool
  | [] => true
  | item :: rest => item.isShort && itemsShort rest

def entriesShort : List (Value × Value) → Bool
  | [] => true
  | (key, value) :: rest => key.isShort && value.isShort && entriesShort rest

end

mutual

/-- How many collections a value has around its innermost part. -/
def depth : Value → Nat
  | list items => itemsDepth items + 1
  | dict entries => entriesDepth entries + 1
  | _ => 0

def itemsDepth : List Value → Nat
  | [] => 0
  | item :: rest => max item.depth (itemsDepth rest)

def entriesDepth : List (Value × Value) → Nat
  | [] => 0
  | (key, value) :: rest => max (max key.depth value.depth) (entriesDepth rest)

end

end Value

end EarningsLedger
