import EarningsLedger.Request.Draft

/-!
# Receipts

A receipt is an earning as it is shown to a caller: the owner's numbers in range, and
the time stamps as moments. It can be read from a dictionary, or from an object that
has the fields.
-/

namespace EarningsLedger

open Calendar Check

/-- An earning as shown to a caller. -/
structure Receipt where
  owner : Owner
  id : Int
  amount : Int
  created : Moment
  updated : Moment
  deriving DecidableEq, Repr

namespace Receipt

def check (fields : Fields) : Verdict Receipt :=
  (Verdict.both (Owner.check fields)
    (Verdict.both (required fields "id" looseInt)
      (Verdict.both (required fields "amount" looseInt)
        (Verdict.both (required fields "created_at" moment)
          (required fields "updated_at" moment))))).map
    fun ⟨owner, id, amount, created, updated⟩ => ⟨owner, id, amount, created, updated⟩

def fields (receipt : Receipt) : Fields :=
  receipt.owner.fields ++
    [("id", .int receipt.id), ("amount", .int receipt.amount),
     ("created_at", .moment receipt.created), ("updated_at", .moment receipt.updated)]

/-- The entries of a dictionary under text keys. -/
def namedEntries (entries : List (Value × Value)) : Fields :=
  entries.filterMap fun entry =>
    match entry.1 with
    | .text name => some (name, entry.2)
    | _ => none

/-- Checks an item of a page: a dictionary, or an object with the fields of a receipt. -/
def rule : Rule Receipt
  | .dict entries => check (namedEntries entries)
  | .draft draft => check draft.fields
  | .decimal _ => check []
  | other => .fail .notObject other

end Receipt

end EarningsLedger
