import EarningsLedger.Ledger.Error
import EarningsLedger.Number.Numeral
import EarningsLedger.Storage.Fault
import EarningsLedger.Text.Search

/-!
# From issues and faults to errors

A request with issues becomes one error: an amount out of range goes before everything
else, and otherwise the first issue decides. A fault becomes an error by what it is
about: too large a number, a broken constraint, unacceptable data, or storage in
general.
-/

namespace EarningsLedger

open Check Storage

/-! ## Issues -/

/-- The name of the field that a path leads into. -/
def fieldOf : List PathStep → Option String
  | .name name :: _ => some name
  | .position n :: _ => some (Text.intText n)
  | [] => none

/-- Whether an issue is an amount outside its range. -/
def Check.Issue.isAmountRange (issue : Issue) : Bool :=
  issue.cause.isRange &&
    (issue.path.head? == some (.name "amount") || issue.path.head? == some (.name "delta"))

/-- The error of an issue on its own. -/
def Check.Issue.error (issue : Issue) : LedgerError :=
  let field := fieldOf issue.path
  let name := field.getD "None"
  if issue.cause = .missing ∨ issue.input.isNull then
    .invalid (.nullField name) (.ofText? field)
  else .invalid (.badField name issue.cause) (.ofText? field)

def errorOfIssues (issues : List Issue) : LedgerError :=
  match issues.find? Issue.isAmountRange with
  | some issue => .overflow issue.input .null
  | none =>
    match issues with
    | issue :: _ => issue.error
    | [] => .invalid (.nullField "None") .null

/-! ## Faults -/

def mentionsRange (text : String) : Bool :=
  Text.occursIn "range".toList (text.toList.map Number.lowerChar)

/-- The error of a fault that is about too large a number. -/
def overflowError (amount : Value) (detail : String) : LedgerError :=
  if amount.isNull then .invalid (.stated (.text detail)) (.text "amount")
  else .overflow amount (.text detail)

/-- The error of a fault, met while an amount was being stored. -/
def Storage.Fault.error (fault : Fault) (amount : Value) : LedgerError :=
  let detail := fault.detail
  if fault.isOverflow then overflowError amount detail
  else
    match fault.kind with
    | .integrity => .constraint (.text detail) .null
    | .data =>
      if !amount.isNull && mentionsRange detail then .overflow amount (.text detail)
      else .invalid (.stated (.text detail)) .null
    | _ => .storage [.text detail]

end EarningsLedger
