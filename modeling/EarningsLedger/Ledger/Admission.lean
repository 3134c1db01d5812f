import EarningsLedger.Binding.Entries
import EarningsLedger.Ledger.Audited
import EarningsLedger.Request.Draft
import EarningsLedger.Request.Filter

/-!
# Admission

Every request is checked before the store is touched. A request that fails its check is
rejected with one error and one warning in the log; where that error cannot be made, there
is no warning either. Filters come ready-made, by name, or
both: names override the parts of a ready-made filter, and without one the names that
have a value make a filter, with the page length of the settings unless one is given.
-/

namespace EarningsLedger

open Check Log Storage

/-- The page lengths in force. -/
structure Limits where
  usual : Int
  maximum : Int
  deriving DecidableEq, Repr

/-! ## Checked requests -/

def checkSignature : Binding.Signature :=
  ⟨"EarningsService._validate", none, [⟨"schema", false⟩, ⟨"event", false⟩], true⟩

def reject {α : Type} (message : String) (event : String) (field : Fields) (error : LedgerError) :
    Audited α :=
  if error.isWorded then do
    Audited.log .warning message
      ([eventField event] ++ field ++
        [("error", .text error.message), ("error_type", .text error.kind.name)])
    Audited.fail (.ledger error)
  else Audited.fail (.fault .tooManyDigits)

/-- Checks named values; names that the check itself uses are a misuse. -/
def approve {α : Type} (check : Fields → Verdict α) (event : String) (data : Fields) :
    Audited α := do
  match checkSignature.bind [.null, .null] data with
  | .error misuse => Audited.fail (.misuse misuse)
  | .ok _ =>
    match check data with
    | .ok a => pure a
    | .error issues =>
      let error := errorOfIssues issues
      reject "Некорректные данные начисления" event
        [("field", error.field?.getD .null)] error

def admitId (id : Value) (event : String) : Audited Int :=
  match id with
  | .int n => pure n
  | other =>
    reject "Некорректный id начисления" event []
      (.invalid (.idKind other.kindName) (.text "id"))

/-- Whether a value is an identifier that callers may ask for. -/
def isValidId : Value → Bool
  | .int n => isKey n
  | _ => false

/-! ## Filters -/

/-- The event of a filter that fails its check. -/
def filterEvent : String := "db_earning_filter_invalid"

/-- The names that make a filter when no ready-made one is given. -/
def namedFilter (limits : Limits) (named : Fields) : Fields :=
  let given := named.present
  if given.has "limit" then given else given ++ [("limit", .int limits.usual)]

def buildFilter (limits : Limits) (ready : Option Filter) (named : Fields) : Audited Filter := do
  let filter ← match ready with
    | some f =>
      if named.isEmpty then pure f
      else approve Filter.check filterEvent (f.fields.putAll named)
    | none => approve Filter.check filterEvent (namedFilter limits named)
  pure (filter.capped limits.maximum)

/-- The parameters of an operation on a filter. -/
def filterSignature (operation : String) (others : List Binding.Parameter) : Binding.Signature :=
  ⟨"EarningsService." ++ operation, some "self", ⟨"earning_filter", true⟩ :: others, true⟩

/-- The names of a request on a filter, without those that the operation itself uses. -/
def filterNames (operation : String) (others : List Binding.Parameter) (named : Value) :
    Audited Binding.Bound :=
  let bound := do
    let names ← Binding.namesOf (← Binding.entriesOf named)
    (filterSignature operation others).bind [.null] names
  Audited.ofExcept (bound.mapError Failure.misuse)

/-- Builds a filter from a ready-made one and any names. -/
def filterOf (limits : Limits) (ready : Option Filter) (named : Value) : Audited Filter := do
  let bound ← filterNames "_build_filter" [] named
  buildFilter limits ready bound.extras

end EarningsLedger
