/-!
# Searching texts

Whether one text stands somewhere in another.
-/

namespace EarningsLedger.Text

/-- Whether a word stands somewhere in a text. -/
def occursIn (word : List Char) : List Char → Bool
  | [] => word.isEmpty
  | c :: rest => word.isPrefixOf (c :: rest) || occursIn word rest

end EarningsLedger.Text
