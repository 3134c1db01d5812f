import EarningsLedger.Value.Equal
import EarningsLedger.Value.Text

/-!
# Slips

A slip is an earning that is still being filled in. Its parts may hold values of any
sort, or be missing. The stamp of its creation is set once: a slip that has one takes no
other, but an equal value may take its place.
-/

namespace EarningsLedger

/-- An earning that is being filled in. -/
structure Slip where
  parts : Fields
  deriving Repr

namespace Slip

/-- Why a slip refuses a value. -/
inductive Trouble where
  | stampIsSet
  | unknownPart (name : String)
  deriving DecidableEq, Repr

def Trouble.sort : Trouble → String
  | stampIsSet => "ValueError"
  | unknownPart _ => "TypeError"

def Trouble.message : Trouble → String
  | stampIsSet => "created_at is immutable once set"
  | unknownPart name =>
    String.ofList (Text.quoted name.toList) ++ " is an invalid keyword argument for Earning"

def names : List String :=
  ["id", "miner_id", "pool_id", "challenge_id", "amount", "created_at", "updated_at"]

def empty : Slip := ⟨[]⟩

def get (slip : Slip) (name : String) : Value := (slip.parts.get? name).getD .null

/-- Whether a part may take a value: the stamp of the creation only one equal to its own. -/
def takes (slip : Slip) (name : String) (value : Value) : Bool :=
  name != "created_at" || (slip.get name).isNull || value.same (slip.get name)

def set (slip : Slip) (name : String) (value : Value) : Except Trouble Slip :=
  if slip.takes name value then .ok ⟨slip.parts.put name value⟩ else .error .stampIsSet

/-- Puts a value into a part of an earning. -/
def fill (slip : Slip) (part : String × Value) : Except Trouble Slip :=
  if names.contains part.1 then slip.set part.1 part.2 else .error (.unknownPart part.1)

def ofFields (fields : Fields) : Except Trouble Slip := fields.foldlM fill empty

/-- All parts of a slip, the missing ones too. -/
def fields (slip : Slip) : Fields := names.map fun name => (name, slip.get name)

def text (slip : Slip) : String :=
  "<Earning " ++ (slip.get "id").display ++ " miner=" ++ (slip.get "miner_id").display ++
    " pool=" ++ (slip.get "pool_id").display ++ " challenge=" ++
    (slip.get "challenge_id").display ++ " amount=" ++ (slip.get "amount").display ++ ">"

end Slip

end EarningsLedger
