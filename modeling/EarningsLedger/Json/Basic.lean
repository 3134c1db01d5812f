import EarningsLedger.Number.Binary64

/-!
# JSON trees

A tree keeps the members of an object in the order they are written in and does not
merge members of one name, so that what a line says can be stated exactly.
-/

namespace EarningsLedger

/-- A JSON value. -/
inductive Json where
  | null
  | bool (b : Bool)
  | int (n : Int)
  | real (x : Number.Binary64)
  | text (s : String)
  | array (items : List Json)
  | object (members : List (String × Json))
  deriving Repr, Inhabited

namespace Json

/-- The members of an object, and none of any other value. -/
def members : Json → List (String × Json)
  | object entries => entries
  | _ => []

/-- The items of an array, and none of any other value. -/
def items : Json → List Json
  | array values => values
  | _ => []

/-- The last member of a name in an object. -/
def get? (tree : Json) (name : String) : Option Json :=
  (tree.members.reverse.find? fun entry => entry.1 == name).map (·.2)

end Json

end EarningsLedger
