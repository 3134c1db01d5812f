import EarningsLedger.Calendar.Moment
import EarningsLedger.Earning.Draft
import EarningsLedger.Number.Decimal

/-!
# Values

Callers hand over arguments of any kind, and log lines carry extra fields of any kind.
A `Value` is one of these: the plain data of a request, numbers of three sorts, bytes,
moments, and drafts. A dictionary keeps its entries in order; `Value.dictOf` builds one
in which no key comes twice.
-/

namespace EarningsLedger

open Calendar Number

/-- Data of any kind. -/
inductive Value where
  | null
  | bool (b : Bool)
  | int (n : Int)
  | float (x : Binary64)
  | decimal (d : Decimal)
  | text (s : String)
  | bytes (data : List UInt8)
  | moment (m : Moment)
  | draft (d : Draft)
  | list (items : List Value)
  | dict (entries : List (Value × Value))
  deriving Repr, Inhabited

/-- Named values, in order. -/
abbrev Fields := List (String × Value)

namespace Value

def ofKey (k : Key) : Value := .int k.val

def ofInt? : Option Int → Value
  | some n => .int n
  | none => .null

def ofText? : Option String → Value
  | some s => .text s
  | none => .null

def ofFields (fields : Fields) : Value := .dict (fields.map fun field => (.text field.1, field.2))

def isNull : Value → Bool
  | null => true
  | _ => false

end Value

namespace Fields

def get? (fields : Fields) (name : String) : Option Value :=
  (fields.find? fun field => field.1 == name).map (·.2)

def has (fields : Fields) (name : String) : Bool := fields.any fun field => field.1 == name

/-- Puts a value under a name: in its place when the name is present, else at the end. -/
def put (fields : Fields) (name : String) (value : Value) : Fields :=
  if has fields name then
    fields.map fun field => if field.1 == name then (name, value) else field
  else fields ++ [(name, value)]

/-- Puts all the fields of a second list. -/
def putAll (fields more : Fields) : Fields :=
  more.foldl (fun done field => put done field.1 field.2) fields

def present (fields : Fields) : Fields := fields.filter fun field => !field.2.isNull

end Fields

end EarningsLedger
