import EarningsLedger.Value.Basic

/-!
# Equal values

Two values are equal when a program that compares them by value cannot tell them apart:
numbers of all sorts, truth values among them, by what they are worth; moments with a
known distance from universal time by the moment they name; dictionaries without regard
to order. A missing number equals nothing.
-/

namespace EarningsLedger

open Calendar Number

/-- What a number is worth, exactly. -/
inductive Worth where
  | nothing
  | infinite (negative : Bool)
  | ratio (num : Int) (den : Nat)
  deriving DecidableEq, Repr

namespace Worth

def signed (negative : Bool) (value : Nat × Nat) : Worth :=
  .ratio (if negative then -Int.ofNat value.1 else Int.ofNat value.1) value.2

def same : Worth → Worth → Bool
  | infinite a, infinite b => a == b
  | ratio n d, ratio n' d' => n * d' == n' * d
  | _, _ => false

end Worth

namespace Value

/-- What a value is worth as a number, if it is one. -/
def worth? : Value → Option Worth
  | bool b => some (.ratio (if b then 1 else 0) 1)
  | int n => some (.ratio n 1)
  | float .nan => some .nothing
  | float (.infinite negative) => some (.infinite negative)
  | float (.finite negative mantissa exponent) =>
    some (.signed negative (Binary64.ratio mantissa exponent))
  | decimal (.nan _ _ _) => some .nothing
  | decimal (.infinite negative) => some (.infinite negative)
  | decimal (.finite negative coefficient exponent) =>
    some (.signed negative (scaleTen coefficient 1 exponent))
  | _ => none

/-- Whether two moments are equal; one with a known distance from universal time never
equals one without. -/
def sameMoment (a b : Moment) : Bool :=
  match a.offset, b.offset with
  | none, none => a.reading == b.reading
  | some x, some y => (a.reading.micros : Int) - x == (b.reading.micros : Int) - y
  | _, _ => false

mutual

def same (a b : Value) : Bool :=
  match a with
  | null => b.isNull
  | text s => match b with | text t => s == t | _ => false
  | bytes s => match b with | bytes t => s == t | _ => false
  | moment s => match b with | moment t => sameMoment s t | _ => false
  | draft s => match b with | draft t => s == t | _ => false
  | list xs => match b with | list ys => sameList xs ys | _ => false
  | dict xs =>
    match b with
    | dict ys => xs.length == ys.length && sameEntries xs ys
    | _ => false
  | bool x => sameWorth (.bool x) b
  | int x => sameWorth (.int x) b
  | float x => sameWorth (.float x) b
  | decimal x => sameWorth (.decimal x) b
where
  sameWorth (a b : Value) : Bool :=
    match a.worth?, b.worth? with
    | some x, some y => x.same y
    | _, _ => false

/-- Whether two lists are equal item by item. -/
def sameList : List Value → List Value → Bool
  | [], [] => true
  | x :: xs, y :: ys => same x y && sameList xs ys
  | _, _ => false

/-- Whether every entry has its equal among others. -/
def sameEntries : List (Value × Value) → List (Value × Value) → Bool
  | [], _ => true
  | (key, value) :: rest, others =>
    (others.any fun other => same key other.1 && same value other.2) && sameEntries rest others

end

/-- Puts an entry into a dictionary: in the place of an equal key, else at the end. -/
def putEntry (entries : List (Value × Value)) (key value : Value) : List (Value × Value) :=
  if entries.any fun entry => entry.1.same key then
    entries.map fun entry => if entry.1.same key then (entry.1, value) else entry
  else entries ++ [(key, value)]

/-- The dictionary of a list of entries; a later entry replaces an earlier one with an
equal key, and keeps its place. -/
def dictOf (entries : List (Value × Value)) : Value :=
  .dict (entries.foldl (fun done entry => putEntry done entry.1 entry.2) [])

/-- Whether a value counts as something: empty texts and collections, zeros, the false
truth value and the missing value do not. -/
def isSomething : Value → Bool
  | null => false
  | bool b => b
  | int n => n != 0
  | float x => !x.isZero
  | decimal d => !d.isZero
  | text s => s != ""
  | bytes data => !data.isEmpty
  | list items => !items.isEmpty
  | dict entries => !entries.isEmpty
  | moment _ => true
  | draft _ => true

end Value

end EarningsLedger
