import EarningsLedger.Binding.Signature
import EarningsLedger.Check.Issue

/-!
# Errors of the ledger

The ledger rejects a call with one of a family of errors. A rejected request names the
field at fault; an amount out of range also carries that amount; a missing earning
carries the identifier that was asked for. `LedgerError.message` words them, and
`LedgerError.isWorded` says when the words can be made.
-/

namespace EarningsLedger

/-- The members of the family. -/
inductive ErrorKind where
  | general
  | invalid
  | overflow
  | constraint
  | notFound
  | storage
  deriving DecidableEq, Repr

namespace ErrorKind

def name : ErrorKind → String
  | general => "EarningsError"
  | invalid => "EarningValidationError"
  | overflow => "AmountOverflowError"
  | constraint => "ConstraintViolationError"
  | notFound => "EarningNotFoundError"
  | storage => "EarningsStorageError"

/-- The wider kinds that a member belongs to, the nearest first. -/
def wider : ErrorKind → List String
  | general => ["Exception"]
  | invalid => ["EarningsError", "ValueError", "Exception"]
  | overflow =>
    ["EarningValidationError", "EarningsError", "ValueError", "OverflowError", "ArithmeticError",
     "Exception"]
  | constraint => ["EarningValidationError", "EarningsError", "ValueError", "Exception"]
  | notFound => ["EarningsError", "LookupError", "Exception"]
  | storage => ["EarningsError", "Exception"]

def every : List ErrorKind := [general, invalid, overflow, constraint, notFound, storage]

def ofName? (name : String) : Option ErrorKind := every.find? fun kind => kind.name == name

end ErrorKind

/-- Why a request is rejected. -/
inductive Reason where
  | nullField (field : String)
  | badField (field : String) (cause : Check.Cause)
  | idKind (kind : String)
  | stated (words : Value)
  deriving Repr

namespace Reason

def message : Reason → String
  | nullField field => field ++ " must not be null"
  | badField field cause => field ++ ": " ++ cause.message
  | idKind kind => "earning id must be an integer, got " ++ kind
  | stated words => words.display

end Reason

/-- An error of the ledger. -/
inductive LedgerError where
  | general (details : List Value)
  | invalid (reason : Reason) (field : Value)
  | overflow (amount : Value) (detail : Value)
  | constraint (detail : Value) (field : Value)
  | notFound (id : Value)
  | storage (details : List Value)
  deriving Repr

namespace LedgerError

def kind : LedgerError → ErrorKind
  | general _ => .general
  | invalid _ _ => .invalid
  | overflow _ _ => .overflow
  | constraint _ _ => .constraint
  | notFound _ => .notFound
  | storage _ => .storage

/-- The text of a list of details: nothing, the only one, or all in brackets. -/
def detailsText : List Value → String
  | [] => ""
  | [only] => only.display
  | many => "(" ++ String.ofList (Value.joined ", " (Value.quotedItems many)) ++ ")"

/-- The sentence of an error. An amount out of range has its own wording unless a detail
is given. -/
def message : LedgerError → String
  | general details => detailsText details
  | invalid reason _ => reason.message
  | overflow amount detail =>
    if detail.isSomething then detail.display
    else "amount " ++ amount.display ++ " is out of unsigned 64-bit range"
  | constraint detail _ => detail.display
  | notFound id => "earning " ++ id.display ++ " not found"
  | storage details => detailsText details

/-- Whether an error can be made. Two kinds put a value of the caller into their own wording
as they are made, which takes a value that a text can show. -/
def isWorded : LedgerError → Bool
  | overflow amount detail => detail.isSomething || amount.isShort
  | notFound id => id.isShort
  | _ => true

/-- The field at fault, for the errors that name one. -/
def field? : LedgerError → Option Value
  | invalid _ field => some field
  | overflow _ _ => some (.text "amount")
  | constraint _ field => some field
  | _ => none

/-- The amount out of range, for the errors that carry one. -/
def amount? : LedgerError → Option Value
  | overflow amount _ => some amount
  | _ => none

/-- The identifier that was not found, for the errors that carry one. -/
def id? : LedgerError → Option Value
  | notFound id => some id
  | _ => none

/-! ## Errors made by hand -/

/-- The parameters of an error that has a message and a field. -/
def messageSignature : Binding.Signature :=
  ⟨"EarningValidationError.__init__", some "self", [⟨"message", false⟩, ⟨"field", true⟩], false⟩

/-- The parameters of an error about an amount. -/
def amountSignature : Binding.Signature :=
  ⟨"AmountOverflowError.__init__", some "self", [⟨"amount", false⟩, ⟨"message", true⟩], false⟩

/-- The parameters of an error about an identifier. -/
def idSignature : Binding.Signature :=
  ⟨"EarningNotFoundError.__init__", some "self", [⟨"earning_id", false⟩], false⟩

/-- The argument of a parameter, or the missing value. -/
def argument (bound : Binding.Bound) (name : String) : Value :=
  (Fields.get? bound.given name).getD .null

def unnamed (kind : ErrorKind) (named : Fields) : Except Binding.Misuse Unit :=
  if named.isEmpty then .ok () else .error (.noNames kind.name)

/-- Makes an error of a kind from arguments. -/
def make (kind : ErrorKind) (positional : List Value) (named : Fields) :
    Except Binding.Misuse LedgerError :=
  match kind with
  | .general => (unnamed kind named).map fun _ => .general positional
  | .storage => (unnamed kind named).map fun _ => .storage positional
  | .invalid =>
    (messageSignature.bind positional named).map fun bound =>
      .invalid (.stated (argument bound "message")) (argument bound "field")
  | .constraint =>
    (messageSignature.bind positional named).map fun bound =>
      .constraint (argument bound "message") (argument bound "field")
  | .overflow =>
    (amountSignature.bind positional named).map fun bound =>
      .overflow (argument bound "amount") (argument bound "message")
  | .notFound =>
    (idSignature.bind positional named).map fun bound => .notFound (argument bound "earning_id")

end LedgerError

end EarningsLedger
