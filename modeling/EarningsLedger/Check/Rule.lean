import EarningsLedger.Check.Verdict
import EarningsLedger.Earning.Bounds
import EarningsLedger.Number.FieldInt

/-!
# Rules for single values

A strict integer is an integer and nothing else; truth values do not pass for one. A
loose integer may also come as a text, as bytes, or as a number of another sort that
has no fraction. The ranged rules add bounds to these.
-/

namespace EarningsLedger.Check

open Calendar Number

/-- A check of a single value. -/
abbrev Rule (α : Type) := Value → Verdict α

/-! ## Integers -/

/-- An integer, and nothing else. -/
def strictInt : Rule Int
  | .int n => .ok n
  | other => .fail .notInteger other

/-- The verdict on the text of a loose integer. -/
def intOfText (input : Value) (cs : List Char) : Verdict Int :=
  match FieldInt.read cs with
  | .ok n => .ok n
  | .error .unreadable => .fail .integerText input
  | .error .tooLong => .fail .integerSize input

/-- The characters of bytes that are a text in UTF-8. -/
def utf8? (data : List UInt8) : Option (List Char) :=
  (String.fromUTF8? ⟨data.toArray⟩).map String.toList

/-- Whether a float is too large to be taken for a loose integer. -/
def beyondWord (n : Int) : Bool := n ≤ -9223372036854775808 || 9223372036854775808 ≤ n

/-- An integer in any of its loose forms. -/
def looseInt : Rule Int
  | .int n => .ok n
  | .bool b => .ok (if b then 1 else 0)
  | .text s => intOfText (.text s) s.toList
  | .bytes data =>
    match utf8? data with
    | some cs => intOfText (.bytes data) cs
    | none => .fail .integerText (.bytes data)
  | .float (.finite negative mantissa exponent) =>
    match (Binary64.finite negative mantissa exponent).toInt? with
    | none => .fail .integerFraction (.float (.finite negative mantissa exponent))
    | some n =>
      if beyondWord n then .fail .integerSize (.float (.finite negative mantissa exponent))
      else .ok n
  | .float x => .fail .notFinite (.float x)
  | .decimal (.finite negative coefficient exponent) =>
    match (Decimal.finite negative coefficient exponent).toInt? with
    | none => .fail .integerFraction (.decimal (.finite negative coefficient exponent))
    | some n => .ok n
  | .decimal d => .fail .notFinite (.decimal d)
  | other => .fail .notInteger other

/-- The bounds of an integer: the upper one is looked at first. -/
def inRange (low high : Option Int) (input : Value) (n : Int) : Verdict Int :=
  match high.filter (· < n), low.filter (n < ·) with
  | some bound, _ => .fail (.above bound) input
  | none, some bound => .fail (.below bound) input
  | none, none => .ok n

/-- An integer under a rule, and within bounds. -/
def bounded (rule : Rule Int) (low high : Option Int) : Rule Int := fun input =>
  match rule input with
  | .ok n => inRange low high input n
  | .error issues => .error issues

/-! ## Ranged numbers -/

/-- The number of a miner, a pool or a challenge. -/
def key : Rule Key := fun input =>
  match strictInt input with
  | .error issues => .error issues
  | .ok n =>
    if h : isKey n = true then .ok ⟨n, h⟩
    else if n < keyLow then .fail (.below keyLow) input
    else .fail (.above keyHigh) input

def amount : Rule Amount := fun input =>
  match strictInt input with
  | .error issues => .error issues
  | .ok n =>
    if h : isAmount n = true then .ok ⟨n, h⟩
    else if n < 0 then .fail (.below 0) input
    else .fail (.above amountHigh) input

def delta : Rule Int := bounded strictInt (some (-amountHigh)) (some amountHigh)

def count : Rule Nat := fun input =>
  match looseInt input with
  | .error issues => .error issues
  | .ok n => if n < 0 then .fail (.below 0) input else .ok n.toNat

def optional {α : Type} (rule : Rule α) : Rule (Option α)
  | .null => .ok none
  | other => (rule other).map some

/-! ## Moments -/

/-- The verdict on a moment that was read from a text. -/
def momentOfText (input : Value) : Except Lenient.Trouble Moment → Verdict Moment
  | .ok m => .ok m
  | .error .yearZero => .fail (.moment .yearZero) input
  | .error trouble => .fail (.dateText trouble) input

/-- The verdict on a moment that was counted. -/
def momentOfCount (input : Value) : Except Lenient.Trouble Moment → Verdict Moment
  | .ok m => .ok m
  | .error trouble => .fail (.moment trouble) input

/-- A moment in any of its loose forms. -/
def moment : Rule Moment
  | .moment m => .ok m
  | .text s => momentOfText (.text s) (Lenient.ofText s)
  | .bytes data => momentOfText (.bytes data) (Lenient.ofBytes data)
  | .int n => momentOfCount (.int n) (Lenient.ofInt n)
  | .float x => momentOfCount (.float x) (Lenient.ofFloat x)
  | .decimal d => momentOfCount (.decimal d) (Lenient.ofFloat d.toBinary64)
  | other => .fail .notMoment other

/-! ## Texts and truth values -/

/-- A text, or bytes that are a text in UTF-8. -/
def text : Rule String
  | .text s => .ok s
  | .bytes data =>
    match utf8? data with
    | some cs => .ok (String.ofList cs)
    | none => .fail .textEncoding (.bytes data)
  | other => .fail .notText other

/-- The words for false and for true, in small letters. -/
def truthWord? (word : String) : Option Bool :=
  if ["0", "off", "f", "false", "n", "no"].contains word then some false
  else if ["1", "on", "t", "true", "y", "yes"].contains word then some true
  else none

/-- The verdict on the text of a truth value, whose letters may be of either case. -/
def truthOfText (input : Value) (cs : List Char) : Verdict Bool :=
  match truthWord? (String.ofList (cs.map lowerChar)) with
  | some b => .ok b
  | none => .fail .truthText input

/-- The verdict on the number of a truth value. -/
def truthOfInt (input : Value) (n : Int) : Verdict Bool :=
  if n = 0 then .ok false
  else if n = 1 then .ok true
  else .fail .truthText input

/-- A truth value in any of its loose forms. -/
def truth : Rule Bool
  | .bool b => .ok b
  | .int n => truthOfInt (.int n) n
  | .text s => truthOfText (.text s) s.toList
  | .bytes data =>
    match utf8? data with
    | some cs => truthOfText (.bytes data) cs
    | none => .fail .truthText (.bytes data)
  | .float x =>
    match x.toInt? with
    | some n => truthOfInt (.float x) n
    | none => .fail .notTruth (.float x)
  | other => .fail .notTruth other

/-! ## Fields of a request -/

/-- The verdict on a field, or on its absence. -/
def field {α : Type} (fields : Fields) (name : String) (fallback : Option α) (rule : Rule α) :
    Verdict α :=
  match Fields.get? fields name with
  | some input => (rule input).under (.name name)
  | none =>
    match fallback with
    | some given => .ok given
    | none => Verdict.under (.name name) (.fail .missing (Value.ofFields fields))

/-- The verdict on a field that must be there. -/
def required {α : Type} (fields : Fields) (name : String) (rule : Rule α) : Verdict α :=
  field fields name none rule

end EarningsLedger.Check
