import EarningsLedger.Request.Receipt
import EarningsLedger.Request.Totals

/-!
# Pages

A page shows some receipts together with where the page stands in the whole list. The
second part is computed by `PageInfo.of` from the bounds of the page, the length of the
whole list and the number of items shown; in a page sent by a caller it is any
dictionary with text keys.
-/

namespace EarningsLedger

open Check

/-! ## Where a page stands -/

/-- Where a page stands in the whole list. -/
structure PageInfo where
  skip : Int
  limit : Int
  total : Int
  currentPage : Int
  totalPages : Int
  hasNext : Bool
  hasPrevious : Bool
  returned : Int
  deriving DecidableEq, Repr

namespace PageInfo

/-- Where a page stands: pages are counted from 1 in steps of the limit, and a list cut
into pages without a length is a single page. -/
def of (skip limit total shown : Int) : PageInfo where
  skip := skip
  limit := limit
  total := total
  currentPage := if 0 < limit then Int.fdiv skip limit + 1 else 1
  totalPages := if 0 < limit then Int.fdiv (total + limit - 1) limit else 1
  hasNext := decide (skip + shown < total)
  hasPrevious := decide (0 < skip)
  returned := shown

/-- The parts of a page's standing by name. -/
def fields (info : PageInfo) : Fields :=
  [("skip", .int info.skip), ("limit", .int info.limit), ("total", .int info.total),
   ("current_page", .int info.currentPage), ("total_pages", .int info.totalPages),
   ("has_next", .bool info.hasNext), ("has_prev", .bool info.hasPrevious),
   ("returned", .int info.returned)]

end PageInfo

/-! ## Pages -/

/-- Some receipts, and where they stand. -/
structure Page where
  items : List Receipt
  standing : Fields
  deriving Repr

namespace Page

/-- The verdicts on items, each under its position from `start` on. -/
def itemVerdicts (start : Nat) : List Value → List (Verdict Receipt)
  | [] => []
  | item :: rest =>
    (Receipt.rule item).under (.position start) :: itemVerdicts (start + 1) rest

def itemRule : Rule (List Receipt)
  | .list items => Verdict.all (itemVerdicts 0 items)
  | other => .fail .notList other

def standingRule : Rule Fields
  | .dict entries =>
    (Verdict.all (entries.map (entryVerdict text fun v => .ok v))).map fun found =>
      Fields.putAll [] found
  | other => .fail .notDictionary other

def check (fields : Fields) : Verdict Page :=
  (Verdict.both (required fields "items" itemRule)
    (required fields "pagination" standingRule)).map fun found => ⟨found.1, found.2⟩

def fields (page : Page) : Fields :=
  [("items", .list (page.items.map fun receipt => .ofFields receipt.fields)),
   ("pagination", .ofFields page.standing)]

end Page

end EarningsLedger
