import EarningsLedger.Message.Directive
import EarningsLedger.Number.FloatText
import EarningsLedger.Value.Text

/-!
# Values in templates

How the letter of a directive shows a value: as a text, as a whole number in one of
three bases, as a number with decimals, or as a single character. `Shown` keeps the sign
of a number and the mark of its base apart, because padding goes between them and the
digits.
-/

namespace EarningsLedger.Message

open Number Text

/-- Why a template cannot be filled in. -/
inductive Trouble where
  | incomplete
  | incompleteKey
  | needsMapping
  | noKey (key : String)
  | tooFew
  | tooMany
  | unsupported (letter : Char) (position : Nat)
  | widthTooBig
  | precisionTooBig
  | measureKind
  | widthRange
  | precisionRange
  | placesRange
  | wholeKind (letter : Char) (kind : String)
  | numberKind (letter : Char) (kind : String)
  | decimalKind (kind : String)
  | characterKind
  | characterRange
  | floatMissing
  | floatInfinite
  | decimalMissing
  | decimalInfinite
  | decimalSignal
  | tooLarge
  | tooManyDigits
  deriving DecidableEq, Repr

namespace Trouble

/-- A character as a complaint can show it. -/
def visible (c : Char) : Char := if 31 ≤ c.toNat ∧ c.toNat < 127 then c else '?'

def message : Trouble → String
  | incomplete => "incomplete format"
  | incompleteKey => "incomplete format key"
  | needsMapping => "format requires a mapping"
  | noKey key => String.ofList (quoted key.toList)
  | tooFew => "not enough arguments for format string"
  | tooMany => "not all arguments converted during string formatting"
  | unsupported letter position =>
    "unsupported format character '" ++ String.ofList [visible letter] ++ "' (0x" ++
      String.ofList (baseDigits 16 letter.toNat) ++ ") at index " ++ natText position
  | widthTooBig => "width too big"
  | precisionTooBig => "precision too big"
  | measureKind => "* wants int"
  | widthRange => "Python int too large to convert to C ssize_t"
  | precisionRange => "Python int too large to convert to C int"
  | placesRange => "precision too large"
  | wholeKind letter kind =>
    "%" ++ String.ofList [letter] ++ " format: an integer is required, not " ++ kind
  | numberKind letter kind =>
    "%" ++ String.ofList [letter] ++ " format: a real number is required, not " ++ kind
  | decimalKind kind => "must be real number, not " ++ kind
  | characterKind => "%c requires int or char"
  | characterRange => "%c arg not in range(0x110000)"
  | floatMissing => "cannot convert float NaN to integer"
  | floatInfinite => "cannot convert float infinity to integer"
  | decimalMissing => "cannot convert NaN to integer"
  | decimalInfinite => "cannot convert Infinity to integer"
  | decimalSignal => "cannot convert signaling NaN to float"
  | tooLarge => "int too large to convert to float"
  | tooManyDigits => Text.tooManyDigits

def sort : Trouble → String
  | incomplete | incompleteKey | unsupported _ _ | widthTooBig | precisionTooBig | floatMissing
  | decimalMissing | decimalSignal | tooManyDigits => "ValueError"
  | noKey _ => "KeyError"
  | widthRange | precisionRange | placesRange | characterRange | floatInfinite | decimalInfinite
  | tooLarge => "OverflowError"
  | _ => "TypeError"

end Trouble

/-- A value made ready for padding. -/
structure Shown where
  sign : List Char
  mark : List Char
  body : List Char
  numeric : Bool
  deriving Repr

def Shown.ofText (cs : List Char) : Shown := ⟨[], [], cs, false⟩

/-- The sign of a number under the flags. -/
def signOf (flags : Flags) (negative : Bool) : List Char :=
  if negative then ['-'] else if flags.plus then ['+'] else if flags.blank then [' '] else []

def upperChar (c : Char) : Char :=
  if 97 ≤ c.toNat ∧ c.toNat ≤ 122 then Char.ofNat (c.toNat - 32) else c

/-- A character that is not ASCII, as an escape. -/
def asciiEscape (c : Char) : List Char :=
  if c.toNat < 128 then [c]
  else if c.toNat < 256 then '\\' :: 'x' :: padHex 2 c.toNat
  else if c.toNat < 65536 then '\\' :: 'u' :: padHex 4 c.toNat
  else '\\' :: 'U' :: padHex 8 c.toNat

/-! ## Whole numbers -/

/-- The whole number that a value stands for. -/
def wholeOf (letter : Char) (v : Value) : Except Trouble Int :=
  let basesOnly := letter = 'x' ∨ letter = 'X' ∨ letter = 'o'
  match v with
  | .int n => .ok n
  | .bool b => .ok (if b then 1 else 0)
  | .float x =>
    if basesOnly then .error (.wholeKind letter "float")
    else
      match x with
      | .nan => .error .floatMissing
      | .infinite _ => .error .floatInfinite
      | .finite negative mantissa exponent => .ok (Binary64.truncate negative mantissa exponent).1
  | .decimal d =>
    if basesOnly then .error (.wholeKind letter "decimal.Decimal")
    else
      match d with
      | .nan _ _ _ => .error .decimalMissing
      | .infinite _ => .error .decimalInfinite
      | .finite negative coefficient exponent =>
        .ok (Decimal.truncate negative coefficient exponent).1
  | other =>
    if basesOnly then .error (.wholeKind letter other.fullKindName)
    else .error (.numberKind letter other.fullKindName)

/-- The most places that whole numbers can be filled up to. -/
def mostPlaces : Nat := 2147483644

/-- A whole number in the base of a letter, with at least `places` digits. Only the decimal
digits of a number can be too many. -/
def showWhole (flags : Flags) (letter : Char) (places : Nat) (n : Int) : Except Trouble Shown :=
  let base := if letter = 'o' then 8 else if letter = 'x' ∨ letter = 'X' then 16 else 10
  if mostPlaces < places then .error .placesRange
  else if base = 10 ∧ ¬ isShort n then .error .tooManyDigits
  else
    let digits := padLeft places '0' (baseDigits base n.natAbs)
    let mark := if flags.alternate ∧ base ≠ 10 then ['0', if base = 8 then 'o' else 'x'] else []
    let case := if letter = 'X' then List.map upperChar else id
    .ok ⟨signOf flags (decide (n < 0)), case mark, case digits, true⟩

/-! ## Numbers with decimals -/

/-- The binary number that a value stands for. -/
def realOf (v : Value) : Except Trouble Binary64 :=
  match v with
  | .float x => .ok x
  | .bool b => .ok (.ofRatio false (if b then 1 else 0) 1)
  | .int n =>
    match Binary64.ofRatio (decide (n < 0)) n.natAbs 1 with
    | .infinite _ => .error .tooLarge
    | x => .ok x
  | .decimal (.nan _ true _) => .error .decimalSignal
  | .decimal d => .ok d.toBinary64
  | other => .error (.decimalKind other.fullKindName)

/-- Puts a point behind the digits when it has to show and does not. -/
def withPoint (alternate : Bool) (cs : List Char) : List Char :=
  if alternate && !cs.contains '.' then
    cs.takeWhile (· != 'e') ++ '.' :: cs.dropWhile (· != 'e')
  else cs

/-- A count of places past which every digit of a binary number is zero. -/
def telling : Nat := 1100

/-- Fills the digits up with zeros, in front of an exponent. -/
def withZeros (count : Nat) (cs : List Char) : List Char :=
  cs.takeWhile (· != 'e') ++ List.replicate count '0' ++ cs.dropWhile (· != 'e')

/-- The digits of a magnitude under a letter. Places past the telling ones are filled with
zeros, except where zeros at the end are dropped anyway. -/
def realDigits (flags : Flags) (letter : Char) (places : Nat) (num den : Nat) : List Char :=
  let told := min places telling
  let cs :=
    if letter = 'f' then withZeros (places - told) (fixedPlaces told num den)
    else if letter = 'e' then withZeros (places - told) (scientificPlaces told num den)
    else
      let general := generalPlaces told flags.alternate num den
      if flags.alternate then withZeros (places - told) general else general
  withPoint flags.alternate cs

def showReal (flags : Flags) (letter : Char) (places : Nat) (x : Binary64) : Shown :=
  let small := lowerChar letter
  let body :=
    match x with
    | .nan => "nan".toList
    | .infinite _ => "inf".toList
    | .finite _ mantissa exponent =>
      let value := Binary64.ratio mantissa exponent
      realDigits flags small places value.1 value.2
  let case := if small = letter then id else List.map upperChar
  ⟨signOf flags x.isNegative, [], case body, true⟩

/-! ## Characters -/

/-- A single character, or the character of a number. -/
def showCharacter (v : Value) : Except Trouble Shown :=
  let ofNumber (n : Int) : Except Trouble Shown :=
    if 0 ≤ n ∧ n < 1114112 then .ok (.ofText [Char.ofNat n.toNat]) else .error .characterRange
  match v with
  | .text s =>
    match s.toList with
    | [c] => .ok (.ofText [c])
    | _ => .error .characterKind
  | .int n => ofNumber n
  | .bool b => ofNumber (if b then 1 else 0)
  | _ => .error .characterKind

def showValue (flags : Flags) (letter : Char) (precision : Option Nat) (position : Nat)
    (v : Value) : Except Trouble Shown :=
  let cut (cs : List Char) : Except Trouble Shown :=
    if v.isShort then .ok (.ofText ((precision.map cs.take).getD cs)) else .error .tooManyDigits
  if letter = 's' then cut v.displayChars
  else if letter = 'r' then cut v.quotedChars
  else if letter = 'a' then cut (v.quotedChars.flatMap asciiEscape)
  else if ['d', 'i', 'u', 'o', 'x', 'X'].contains letter then
    (wholeOf letter v).bind (showWhole flags letter (precision.getD 0))
  else if ['e', 'E', 'f', 'F', 'g', 'G'].contains letter then
    (realOf v).map (showReal flags letter (precision.getD 6))
  else if letter = 'c' then showCharacter v
  else .error (.unsupported letter position)

/-- Pads a value to a width. Zeros go between the sign and the digits, blanks outside. -/
def Shown.pad (shown : Shown) (flags : Flags) (width : Nat) : List Char :=
  let full := shown.sign ++ shown.mark ++ shown.body
  let missing := width - full.length
  if flags.left then full ++ List.replicate missing ' '
  else if shown.numeric && flags.zeros then
    shown.sign ++ shown.mark ++ List.replicate missing '0' ++ shown.body
  else List.replicate missing ' ' ++ full

end EarningsLedger.Message
