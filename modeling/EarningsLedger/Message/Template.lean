import EarningsLedger.Message.Conversion
import EarningsLedger.Value.Equal

/-!
# Filling templates in

A template takes its values one after another from a list, or by key from a dictionary.
A list must be used up exactly; a dictionary need not be. `fill` goes through the
template from left to right and stops at the first trouble.
-/

namespace EarningsLedger.Message

/-- What a template is filled with. -/
inductive Arguments where
  | several (values : List Value)
  | single (value : Value)
  deriving Repr

/-- The values still to be shown, and the dictionary for keys. -/
structure Supply where
  rest : List Value
  mapping : Option (List (Value × Value))
  deriving Repr

/-- The supply of arguments; a dictionary may be looked into by key. -/
def Supply.of : Arguments → Supply
  | .several values => ⟨values, none⟩
  | .single (.dict entries) => ⟨[.dict entries], some entries⟩
  | .single value => ⟨[value], none⟩

def Supply.next (supply : Supply) : Except Trouble (Value × Supply) :=
  match supply.rest with
  | [] => .error .tooFew
  | value :: rest => .ok (value, { supply with rest := rest })

/-- Looks a key up; its value is the only one left to show then. -/
def Supply.at (supply : Supply) (key : Option String) : Except Trouble Supply :=
  match key with
  | none => .ok supply
  | some name =>
    match supply.mapping with
    | none => .error .needsMapping
    | some entries =>
      match entries.find? fun entry => entry.1.same (.text name) with
      | some entry => .ok { supply with rest := [entry.2] }
      | none => .error (.noKey name)

/-- The bounds of a measure: the most it can be, and what is wrong when one written out or
one taken from the values is out of range. -/
structure Bounds where
  most : Nat
  written : Trouble
  given : Trouble
  deriving Repr

def widthBounds : Bounds := ⟨9223372036854775807, .widthTooBig, .widthRange⟩

def precisionBounds : Bounds := ⟨2147483647, .precisionTooBig, .precisionRange⟩

/-- A measure, from the values when it is not written out. -/
def Supply.measure (supply : Supply) (bounds : Bounds) :
    Measure → Except Trouble (Option Int × Supply)
  | .none => .ok (none, supply)
  | .fixed n => if n ≤ bounds.most then .ok (some n, supply) else .error bounds.written
  | .given => do
    let (value, rest) ← supply.next
    let n ← match value with
      | .int n => pure n
      | .bool b => pure (if b then 1 else 0)
      | _ => throw .measureKind
    if -Int.ofNat bounds.most - 1 ≤ n ∧ n ≤ Int.ofNat bounds.most then pure (some n, rest)
    else throw bounds.given

/-- Shows a value where a directive stands. A negative width pads on the right. -/
def fillDirective (d : Directive) (supply : Supply) : Except Trouble (List Char × Supply) := do
  let supply ← supply.at d.key
  let (width, supply) ← supply.measure widthBounds d.width
  let (precision, supply) ← supply.measure precisionBounds d.precision
  let size := width.getD 0
  let flags := { d.flags with left := d.flags.left || decide (size < 0) }
  match d.letter with
  | none => throw .incomplete
  | some letter =>
    let (value, supply) ← supply.next
    let shown ← showValue flags letter (precision.map Int.toNat) d.position value
    pure (shown.pad flags size.natAbs, supply)

def fillPieces : List Piece → Supply → Except Trouble (List Char)
  | [], supply =>
    if supply.rest ≠ [] ∧ supply.mapping.isNone then .error .tooMany else .ok []
  | .plain c :: pieces, supply => (fillPieces pieces supply).map (c :: ·)
  | .openKey :: _, supply =>
    .error (if supply.mapping.isSome then .incompleteKey else .needsMapping)
  | .directive d :: pieces, supply => do
    let (shown, rest) ← fillDirective d supply
    (fillPieces pieces rest).map (shown ++ ·)

def fill (template : List Char) (arguments : Arguments) : Except Trouble (List Char) :=
  fillPieces (Piece.ofChars template) (Supply.of arguments)

end EarningsLedger.Message
