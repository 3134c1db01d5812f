import EarningsLedger.Binding.Signature

/-!
# Values as items and as entries

A batch may be any value that has items, and each item may be anything that makes a
dictionary: a dictionary, or items that are pairs. What has no items, or an item that is
no pair, is a misuse of the call.
-/

namespace EarningsLedger.Binding

/-- The items of a value, if it has any notion of them: the characters of a text, the
numbers of bytes, the keys of a dictionary, the named fields of a draft. -/
def itemsOf? : Value → Option (List Value)
  | .text s => some (s.toList.map fun c => .text (String.ofList [c]))
  | .bytes data => some (data.map fun b => .int b.toNat)
  | .list items => some items
  | .dict entries => some (entries.map Prod.fst)
  | .draft d => some
    [.list [.text "miner_id", .ofKey d.miner], .list [.text "pool_id", .ofKey d.pool],
     .list [.text "challenge_id", .ofKey d.challenge], .list [.text "amount", .int d.amount.val]]
  | _ => none

/-- The items of a value, or the complaint that it has none. -/
def items (v : Value) : Except Misuse (List Value) :=
  (itemsOf? v).elim (.error (.notIterable v.fullKindName)) .ok

def isHashable : Value → Bool
  | .list _ => false
  | .dict _ => false
  | .draft _ => false
  | _ => true

def pairOf (index : Nat) (item : Value) : Except Misuse (Value × Value) :=
  match itemsOf? item with
  | none => .error (.entryNotSequence index)
  | some [key, value] =>
    if isHashable key then .ok (key, value) else .error (.unhashable key.kindName)
  | some other => .error (.entryLength index other.length)

/-- The entries that items stand for, from an index on. -/
def pairsOf (index : Nat) : List Value → Except Misuse (List (Value × Value))
  | [] => .ok []
  | item :: rest => do
    let first ← pairOf index item
    let others ← pairsOf (index + 1) rest
    pure (first :: others)

/-- The entries of a value as a dictionary, in which no key comes twice. -/
def entriesOf (v : Value) : Except Misuse (List (Value × Value)) :=
  match v with
  | .dict entries => .ok entries
  | other => do
    let found ← pairsOf 0 (← items other)
    pure (found.foldl (fun done entry => Value.putEntry done entry.1 entry.2) [])

/-- Entries as named arguments; every key must be a text. -/
def namesOf : List (Value × Value) → Except Misuse Fields
  | [] => .ok []
  | (key, value) :: rest => do
    match key with
    | .text name => pure ((name, value) :: (← namesOf rest))
    | _ => throw .nameNotText

end EarningsLedger.Binding
