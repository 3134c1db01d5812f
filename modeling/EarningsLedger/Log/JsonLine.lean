import EarningsLedger.Calendar.Iso
import EarningsLedger.Json.Printer
import EarningsLedger.Log.Record

/-!
# JSON lines

A record becomes one JSON object on one line: when and where it was written and what it
says, then its exception, then the extra fields in their order. An extra field never
replaces a member that is already there, and names with a leading underscore stay out.
Values that JSON does not know are written as the text a message would show. An integer that
is too long for a text keeps the whole record from the line, and so do values that are nested
deeper than the stack has room for.
-/

namespace EarningsLedger.Log

open Calendar

/-! ## Trees of values -/

/-- The name of a dictionary's key in an object. -/
def keyText : Value → Except LineTrouble String
  | .text s => .ok s
  | .null => .ok "null"
  | .bool b => .ok (if b then "true" else "false")
  | .int n => if Text.isShort n then .ok (Text.intText n) else .error .tooManyDigits
  | .float x => .ok (String.ofList (x.chars Number.lineStyle))
  | other => .error (.keySort other.fullKindName)

/-- The complaint about values that are nested too deep for a line. -/
def tooDeepForLine : LineTrouble := .tooDeep "encoding a JSON object"

mutual

/-- The tree of a value, where the stack has room for so many levels. -/
def treeOf (levels : Nat) : Value → Except LineTrouble Json
  | .null => .ok .null
  | .bool b => .ok (.bool b)
  | .int n => if Text.isShort n then .ok (.int n) else .error .tooManyDigits
  | .float x => .ok (.real x)
  | .text s => .ok (.text s)
  | .list items =>
    match levels with
    | 0 => .error tooDeepForLine
    | levels + 1 => (treesOf levels items).map .array
  | .dict entries =>
    match levels with
    | 0 => .error tooDeepForLine
    | levels + 1 => (memberTrees levels entries).map .object
  | .decimal d => .ok (.text d.text)
  | .bytes data => .ok (.text (Value.display (.bytes data)))
  | .moment m => .ok (.text (Value.display (.moment m)))
  | .draft d => .ok (.text (Value.display (.draft d)))

/-- The trees of the items of a list. -/
def treesOf (levels : Nat) : List Value → Except LineTrouble (List Json)
  | [] => .ok []
  | item :: rest => do
    let first ← treeOf levels item
    let others ← treesOf levels rest
    pure (first :: others)

def memberTrees (levels : Nat) : List (Value × Value) → Except LineTrouble (List (String × Json))
  | [] => .ok []
  | (key, value) :: rest => do
    let name ← keyText key
    let first ← treeOf levels value
    let others ← memberTrees levels rest
    pure ((name, first) :: others)

end

/-! ## Members of a line -/

/-- Whether an extra field is written: not a member already, and not hidden. -/
def isShown (core : Fields) (name : String) : Bool :=
  !core.has name && !Record.reservedNames.contains name && name.toList.head? != some '_'

/-- The members that every line has, and the exception. -/
def coreFields (levels : Nat) (record : Record) (stamp sentence : String) : Fields :=
  [("timestamp", .text stamp), ("level", record.get "levelname"), ("logger", record.get "name"),
   ("message", .text sentence), ("module", record.get "module"),
   ("function", record.get "funcName"), ("line", record.get "lineno")] ++
    (record.exception.map fun raised => ("exception", Value.text (raised.line levels))).toList

def lineFields (levels : Nat) (record : Record) (stamp sentence : String) : Fields :=
  let core := coreFields levels record stamp sentence
  core ++ record.extras.filter fun field => isShown core field.1

def fieldTrees (levels : Nat) : Fields → Except LineTrouble (List (String × Json))
  | [] => .ok []
  | (name, value) :: rest => do
    let first ← treeOf levels value
    let others ← fieldTrees levels rest
    pure ((name, first) :: others)

/-- The stamp of a line written at an instant. -/
def lineStamp (now : Instant) : String := (Moment.mk now (some 0)).isoText

/-- The tree of a record. -/
def jsonTree (occasion : Occasion) (record : Record) : Except LineTrouble Json := do
  let sentence ← record.sentence occasion.levels
  let fields := lineFields occasion.levels record (lineStamp occasion.now) sentence
  let members ← fieldTrees occasion.levels fields
  pure (.object members)

/-- The line of a record. -/
def jsonLine (occasion : Occasion) (record : Record) : Except LineTrouble String :=
  (jsonTree occasion record).map Json.line

end EarningsLedger.Log
