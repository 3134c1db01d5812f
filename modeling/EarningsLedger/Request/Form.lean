import EarningsLedger.Request.Draft
import EarningsLedger.Request.Filter
import EarningsLedger.Request.Page

/-!
# Forms

A form is one of the sets of fields that requests and answers are made of. `Form.check`
checks named values against a form and gives the fields back as the form holds them,
with defaults filled in and loose values turned into plain ones.
-/

namespace EarningsLedger

open Check

/-- The forms of requests and answers. -/
inductive Form where
  | bounds
  | owner
  | draft
  | newAmount
  | change
  | filter
  | receipt
  | totals
  | page
  deriving DecidableEq, Repr

namespace Form

def title : Form → String
  | bounds => "PaginationParams"
  | owner => "EarningBase"
  | draft => "EarningCreate"
  | newAmount => "EarningUpdate"
  | change => "EarningAdjust"
  | filter => "EarningFilter"
  | receipt => "EarningResponse"
  | totals => "EarningTotals"
  | page => "EarningPage"

def every : List Form :=
  [bounds, owner, draft, newAmount, change, filter, receipt, totals, page]

def ofTitle? (name : String) : Option Form := every.find? fun form => form.title == name

/-- Checks the fields of a form, and gives them as the form holds them. -/
def check (form : Form) (fields : Fields) : Verdict Fields :=
  match form with
  | bounds => (PageBounds.check fields).map PageBounds.fields
  | owner => (Owner.check fields).map Owner.fields
  | draft => (Draft.check fields).map Draft.fields
  | newAmount => (checkAmount fields).map fun a => [("amount", .int a.val)]
  | change => (checkDelta fields).map fun d => [("delta", .int d)]
  | filter => (Filter.check fields).map Filter.fields
  | receipt => (Receipt.check fields).map Receipt.fields
  | totals => (Totals.check fields).map Totals.fields
  | page => (Page.check fields).map Page.fields

/-- Checks the fields of a form; the issues are listed under its title. -/
def accept (form : Form) (fields : Fields) : Except Issues Fields :=
  (form.check fields).mapError fun issues => ⟨form.title, issues⟩

end Form

end EarningsLedger
