import EarningsLedger.Value.Equal
import EarningsLedger.Value.Text

/-!
# Calls by position and by name

Arguments are handed to an operation by position or by name. A `Signature` says which
names it knows and whether it gathers the others; `Signature.bind` gives each parameter
its argument or says why the call does not fit. A name is looked at before the number of
positions, and missing arguments come last.
-/

namespace EarningsLedger.Binding

/-- Why a call does not fit. -/
inductive Misuse where
  | repeatedArgument (callee name : String)
  | repeatedKeyword (callee name : String)
  | unknownName (callee name : String)
  | noNames (callee : String)
  | tooMany (callee : String) (least most given : Nat)
  | missing (callee : String) (names : List String)
  | nameNotText
  | notIterable (kind : String)
  | entryNotSequence (index : Nat)
  | entryLength (index length : Nat)
  | unhashable (kind : String)
  deriving DecidableEq, Repr

namespace Misuse

/-- Names in quotes, with commas and a conjunction between them. -/
def nameList (names : List String) : String :=
  match names.map fun name => "'" ++ name ++ "'" with
  | [] => ""
  | [a] => a
  | [a, b] => a ++ " and " ++ b
  | many => String.intercalate ", " many.dropLast ++ ", and " ++ many.getLastD ""

/-- A number of positions, as a phrase. -/
def positions (least most : Nat) : String :=
  if least = most then
    Text.natText most ++ (if most = 1 then " positional argument" else " positional arguments")
  else "from " ++ Text.natText least ++ " to " ++ Text.natText most ++ " positional arguments"

def message : Misuse → String
  | repeatedArgument callee name =>
    callee ++ "() got multiple values for argument '" ++ name ++ "'"
  | repeatedKeyword callee name =>
    callee ++ "() got multiple values for keyword argument '" ++ name ++ "'"
  | unknownName callee name =>
    callee ++ "() got an unexpected keyword argument '" ++ name ++ "'"
  | noNames callee => callee ++ "() takes no keyword arguments"
  | tooMany callee least most given =>
    callee ++ "() takes " ++ positions least most ++ " but " ++ Text.natText given ++
      (if given = 1 then " was given" else " were given")
  | missing callee names =>
    callee ++ "() missing " ++ Text.natText names.length ++
      (if names.length = 1 then " required positional argument: "
       else " required positional arguments: ") ++ nameList names
  | nameNotText => "keywords must be strings"
  | notIterable kind => "'" ++ kind ++ "' object is not iterable"
  | entryNotSequence index =>
    "cannot convert dictionary update sequence element #" ++ Text.natText index ++
      " to a sequence"
  | entryLength index length =>
    "dictionary update sequence element #" ++ Text.natText index ++ " has length " ++
      Text.natText length ++ "; 2 is required"
  | unhashable kind => "unhashable type: '" ++ kind ++ "'"

/-- Whether the shape of a value is to blame, and not the sort of it. -/
def isShape : Misuse → Bool
  | entryLength _ _ => true
  | _ => false

end Misuse

/-- A parameter of an operation. -/
structure Parameter where
  name : String
  optional : Bool
  deriving DecidableEq, Repr

/-- The parameters of an operation, and whether it gathers other names. An operation with
a receiver counts it as the first position. -/
structure Signature where
  callee : String
  receiver : Option String
  parameters : List Parameter
  gathers : Bool
  deriving DecidableEq, Repr

/-- Arguments by the name of their parameter, and the names gathered besides. -/
structure Bound where
  given : Fields
  extras : Fields
  deriving Repr

namespace Signature

def bindName (sig : Signature) (bound : Bound) (argument : String × Value) :
    Except Misuse Bound :=
  if sig.receiver == some argument.1 || Fields.has bound.given argument.1 then
    .error (.repeatedArgument sig.callee argument.1)
  else if sig.parameters.any fun p => p.name == argument.1 then
    .ok { bound with given := bound.given ++ [argument] }
  else if sig.gathers then .ok { bound with extras := bound.extras ++ [argument] }
  else .error (.unknownName sig.callee argument.1)

/-- Gives every argument to its parameter, or says why the call does not fit. -/
def bind (sig : Signature) (positional : List Value) (named : Fields) : Except Misuse Bound := do
  let names := sig.parameters.map Parameter.name
  let bound ← named.foldlM sig.bindName ⟨names.zip positional, []⟩
  let self := if sig.receiver.isSome then 1 else 0
  if names.length < positional.length then
    let least := (sig.parameters.filter fun p => !p.optional).length
    throw (.tooMany sig.callee (least + self) (names.length + self) (positional.length + self))
  let absent := sig.parameters.filter fun p => !p.optional && !Fields.has bound.given p.name
  if absent.isEmpty then pure bound else throw (.missing sig.callee (absent.map Parameter.name))

end Signature

end EarningsLedger.Binding
