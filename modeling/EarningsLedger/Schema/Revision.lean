import EarningsLedger.Text.Digits

/-!
# Revisions

The table of earnings is made and unmade in steps, each with a revision of its own. The
steps stand in one line, so that a place between them is a number: how many of them have
been taken. `Place.named` finds the place of a name, and `Journey.places` the two places
between which a journey goes, upward or downward.
-/

namespace EarningsLedger.Schema

/-- The revisions, the first one first. -/
def history : List String := ["3f9a1c2e7b40"]

/-- Whether steps are taken or taken back. -/
inductive Direction where
  | up
  | down
  deriving DecidableEq, Repr

/-- Why a journey cannot be made. -/
inductive JourneyTrouble where
  | unknown (name : String)
  | tooFar (written : String) (steps : Nat)
  | overrun
  | notBelow (target : String)
  | needsStart
  | manyParts
  | nowhere
  deriving DecidableEq, Repr

namespace JourneyTrouble

def sort : JourneyTrouble → String
  | manyParts => "ValueError"
  | nowhere => "AssertionError"
  | _ => "CommandError"

def message : JourneyTrouble → String
  | unknown name => "Can't locate revision identified by '" ++ name ++ "'"
  | tooFar written steps =>
    "Relative revision " ++ written ++ " didn't produce " ++ Text.natText steps ++ " migrations"
  | overrun => "Walked too far"
  | notBelow target =>
    "Destination " ++ target ++ " is not a valid downgrade target from current head(s)"
  | needsStart => "downgrade with --sql requires <fromrev>:<torev>"
  | manyParts => "too many values to unpack (expected 2)"
  | nowhere => ""

end JourneyTrouble

namespace Journey

/-- The place of a name: the ground, the top, or a revision, which may be shortened. -/
def placeOf (name : String) : Except JourneyTrouble Nat :=
  if name = "base" then .ok 0
  else if name = "head" ∨ name = "heads" then .ok history.length
  else if name = "" then .error .nowhere
  else
    match history.findIdx? fun revision => name.toList.isPrefixOf revision.toList with
    | some index => .ok (index + 1)
    | none => .error (.unknown name)

/-! ## Targets that count steps -/

/-- A target that counts steps, from a name or from where the journey starts. -/
structure Relative where
  origin : Option String
  sign : Char
  digits : List Char
  deriving DecidableEq, Repr

def isNameChar (c : Char) : Bool := c.isAlphanum || c == '_'

/-- Reads a target that counts steps; what follows the digits does not matter. -/
def relative? (target : String) : Option Relative :=
  let cs := target.toList
  let name := cs.takeWhile isNameChar
  match cs.drop name.length with
  | sign :: more =>
    let digits := more.takeWhile Char.isDigit
    if (sign = '+' ∨ sign = '-') ∧ digits ≠ [] then
      some ⟨if name = [] then none else some (String.ofList name), sign, digits⟩
    else none
  | [] => none

namespace Relative

/-- The steps that a target counts, downward ones negative. -/
def steps (relative : Relative) : Int :=
  let n := Int.ofNat (relative.digits.foldl (fun n c => 10 * n + Text.digitValue c) 0)
  if relative.sign = '-' then -n else n

/-- The complaint about a count of steps from the start. -/
def tooFar (relative : Relative) : JourneyTrouble :=
  .tooFar (String.ofList (relative.sign :: relative.digits)) relative.steps.natAbs

/-- The place a number of steps away, if there is one. -/
def placeFrom? (place : Nat) (steps : Int) : Option Nat :=
  let there := (place : Int) + steps
  if 0 ≤ there ∧ there ≤ history.length then some there.toNat else none

/-- The place that a journey upward goes to. -/
def placeAbove (relative : Relative) (start : Nat) : Except JourneyTrouble Nat :=
  match relative.origin with
  | some name => do
    match placeFrom? (← placeOf name) relative.steps with
    | some (place + 1) => pure (place + 1)
    | _ => throw .nowhere
  | none =>
    if relative.steps ≤ 0 then .error relative.tooFar
    else (placeFrom? start relative.steps).elim (.error relative.tooFar) .ok

/-- The place that a journey downward goes to. -/
def placeBelow (relative : Relative) (start : Nat) : Except JourneyTrouble Nat :=
  match relative.origin with
  | some name => do
    (placeFrom? (← placeOf name) relative.steps).elim (.error .overrun) .ok
  | none =>
    if 0 ≤ relative.steps then .error relative.tooFar
    else (placeFrom? start relative.steps).elim (.error relative.tooFar) .ok

end Relative

/-! ## Journeys -/

/-- The start and the target of a journey as written. A journey downward names its start. -/
def ends (direction : Direction) (written : String) :
    Except JourneyTrouble (Option String × String) :=
  match written.toList.splitOn ':' with
  | [_] => if direction = .down then .error .needsStart else .ok (none, written)
  | [start, target] => .ok (some (String.ofList start), String.ofList target)
  | _ => .error .manyParts

/-- The place of a target, seen from the start. -/
def targetPlace (direction : Direction) (start : Nat) (target : String) :
    Except JourneyTrouble Nat :=
  match relative? target, direction with
  | some relative, .up => relative.placeAbove start
  | some relative, .down => relative.placeBelow start
  | none, _ => placeOf target

/-- The places between which a journey goes. A target that is not ahead leaves nothing to
do, except that one can only go down to a place that was reached before. -/
def places (direction : Direction) (start : Option String) (target : String) :
    Except JourneyTrouble (Nat × Nat) := do
  let first ← (start.map placeOf).getD (.ok 0)
  let last ← targetPlace direction first target
  match direction with
  | .up => pure (first, max first last)
  | .down => if first < last then throw (.notBelow target) else pure (first, last)

end Journey

end EarningsLedger.Schema
