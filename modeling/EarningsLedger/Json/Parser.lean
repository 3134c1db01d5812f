import EarningsLedger.Json.Basic
import EarningsLedger.Number.Numeral
import EarningsLedger.Text.Hex

/-!
# Reading JSON

`parse` reads one tree, with blanks allowed between its parts and nothing behind it.
The reader takes a bound on the number of steps, which the length of the text provides,
since every step consumes a character. Numbers without a fraction and an exponent are
integers of any size.
-/

namespace EarningsLedger.Json

open Number Text

/-- A blank between the parts of a tree. -/
def isGap (c : Char) : Bool := c == ' ' || c == '\n' || c == '\r' || c == '\t'

def skipGap (cs : List Char) : List Char := cs.dropWhile isGap

/-! ## Texts -/

def fourHex : List Char → Option (Nat × List Char)
  | a :: b :: c :: d :: rest => do
    let w ← hexValue? a
    let x ← hexValue? b
    let y ← hexValue? c
    let z ← hexValue? d
    pure (((w * 16 + x) * 16 + y) * 16 + z, rest)
  | _ => none

/-- The low half of a pair of units that together name one character. -/
def lowUnit : List Char → Option (Nat × List Char)
  | '\\' :: 'u' :: rest =>
    (fourHex rest).bind fun unit =>
      if 56320 ≤ unit.1 ∧ unit.1 < 57344 then some unit else none
  | _ => none

/-- The character of a unit, joined with the low half behind it when it is a high half.
A half that stands alone becomes the replacement character. -/
def unitChar (unit : Nat) (rest : List Char) : Char × List Char :=
  if 55296 ≤ unit ∧ unit < 56320 then
    match lowUnit rest with
    | some low => (Char.ofNat (65536 + (unit - 55296) * 1024 + (low.1 - 56320)), low.2)
    | none => (Char.ofNat 65533, rest)
  else if 56320 ≤ unit ∧ unit < 57344 then (Char.ofNat 65533, rest)
  else (Char.ofNat unit, rest)

/-- The character that a short escape stands for. -/
def shortEscape? (c : Char) : Option Char :=
  if c = '"' ∨ c = '\\' ∨ c = '/' then some c
  else if c = 'n' then some '\n'
  else if c = 'r' then some '\r'
  else if c = 't' then some '\t'
  else if c = 'b' then some (Char.ofNat 8)
  else if c = 'f' then some (Char.ofNat 12)
  else none

/-- Reads the characters of a text up to its closing quote. -/
def textBody : (steps : Nat) → List Char → Option (List Char × List Char)
  | 0, _ => none
  | _ + 1, [] => none
  | steps + 1, c :: rest =>
    if c = '"' then some ([], rest)
    else if c = '\\' then
      match rest with
      | 'u' :: hex =>
        (fourHex hex).bind fun unit =>
          let found := unitChar unit.1 unit.2
          (textBody steps found.2).map fun body => (found.1 :: body.1, body.2)
      | e :: rest =>
        (shortEscape? e).bind fun found =>
          (textBody steps rest).map fun body => (found :: body.1, body.2)
      | [] => none
    else (textBody steps rest).map fun body => (c :: body.1, body.2)

def textAfterQuote (cs : List Char) : Option (String × List Char) :=
  (textBody (cs.length + 1) cs).map fun body => (String.ofList body.1, body.2)

/-! ## Numbers and words -/

/-- A character that can stand in a number. -/
def isNumberChar (c : Char) : Bool :=
  isDigit c || c == '-' || c == '+' || c == '.' || c == 'e' || c == 'E'

/-- The tree of the characters of a number. -/
def numberOf (cs : List Char) : Option Json :=
  if cs.all fun c => isDigit c || c == '-' then
    match cs with
    | '-' :: digits => (readNat digits).map fun n => .int (-Int.ofNat n)
    | digits => (readNat digits).map fun n => .int (Int.ofNat n)
  else (Numeral.read cs).map fun numeral => .real numeral.toBinary64

def words : List (List Char × Json) :=
  [("null".toList, .null), ("true".toList, .bool true), ("false".toList, .bool false),
   ("NaN".toList, .real .nan), ("Infinity".toList, .real (.infinite false)),
   ("-Infinity".toList, .real (.infinite true))]

def word? (cs : List Char) : Option (Json × List Char) :=
  (words.find? fun entry => entry.1.isPrefixOf cs).map fun entry =>
    (entry.2, cs.drop entry.1.length)

def atom (cs : List Char) : Option (Json × List Char) :=
  match word? cs with
  | some found => some found
  | none => (numberOf (cs.takeWhile isNumberChar)).map fun n => (n, cs.dropWhile isNumberChar)

/-! ## Trees -/

mutual

def value : (steps : Nat) → List Char → Option (Json × List Char)
  | 0, _ => none
  | steps + 1, cs =>
    match skipGap cs with
    | '"' :: rest => (textAfterQuote rest).map fun found => (.text found.1, found.2)
    | '[' :: rest =>
      match skipGap rest with
      | ']' :: rest => some (.array [], rest)
      | rest => (valueList steps rest).map fun found => (.array found.1, found.2)
    | '\x7b' :: rest =>
      match skipGap rest with
      | '\x7d' :: rest => some (.object [], rest)
      | rest => (memberList steps rest).map fun found => (.object found.1, found.2)
    | rest => atom rest

def valueList : (steps : Nat) → List Char → Option (List Json × List Char)
  | 0, _ => none
  | steps + 1, cs =>
    (value steps cs).bind fun first =>
      match skipGap first.2 with
      | ']' :: rest => some ([first.1], rest)
      | ',' :: rest => (valueList steps rest).map fun found => (first.1 :: found.1, found.2)
      | _ => none

def memberList : (steps : Nat) → List Char → Option (List (String × Json) × List Char)
  | 0, _ => none
  | steps + 1, cs =>
    match skipGap cs with
    | '"' :: rest =>
      (textAfterQuote rest).bind fun name =>
        match skipGap name.2 with
        | ':' :: rest =>
          (value steps rest).bind fun first =>
            match skipGap first.2 with
            | '\x7d' :: rest => some ([(name.1, first.1)], rest)
            | ',' :: rest =>
              (memberList steps rest).map fun found => ((name.1, first.1) :: found.1, found.2)
            | _ => none
        | _ => none
    | _ => none

end

def parseChars (cs : List Char) : Option Json :=
  (value (cs.length + 1) cs).bind fun found =>
    if skipGap found.2 = [] then some found.1 else none

def parse (s : String) : Option Json := parseChars s.toList

end EarningsLedger.Json
