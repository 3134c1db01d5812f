import EarningsLedger.Calendar.Instant
import EarningsLedger.Log.Entry
import EarningsLedger.Message.Template

/-!
# Log records

A record is what a log handler gets: attributes of its own, such as the name of its
logger and the place in the program it comes from, an exception if there is one, and
extra fields. A field named like an attribute replaces it. The sentence of a record is
its message, filled in with its arguments when there are any.

Not every record has a line. What its line depends on besides the record is an `Occasion`,
and `LineTrouble` says why there is none. Texts are sequences of characters; half of a
surrogate pair, which no file takes, is not one.
-/

namespace EarningsLedger.Log

open Calendar Message Text

/-! ## Occasions -/

/-- What a line depends on besides its record: what the clock says, by how many seconds local
clocks are ahead of universal time at a count of microseconds from the year 1, and for how many
levels of nested values the stack has room. -/
structure Occasion where
  now : Instant
  ahead : Int → Int
  levels : Nat

/-- Why a record has no line. -/
inductive LineTrouble where
  | template (trouble : Trouble)
  | keySort (kind : String)
  | style (format : String)
  | missingField (name : String)
  | fieldFormat (kind : String) (typed : Bool)
  | year (year : Int)
  | notCallable (kind : String)
  | tooManyDigits
  | tooDeep (task : String)
  deriving DecidableEq, Repr

namespace LineTrouble

def message : LineTrouble → String
  | template trouble => trouble.message
  | keySort kind => "keys must be str, int, float, bool or None, not " ++ kind
  | style format => "Invalid format '" ++ format ++ "' for '%' style"
  | missingField name => "Formatting field not found in record: " ++ String.ofList (quoted name.toList)
  | fieldFormat kind true => "Unknown format code 's' for object of type '" ++ kind ++ "'"
  | fieldFormat kind false => "unsupported format string passed to " ++ kind ++ ".__format__"
  | year n => "year " ++ intText n ++ " is out of range"
  | notCallable kind => "'" ++ kind ++ "' object is not callable"
  | tooManyDigits => Text.tooManyDigits
  | tooDeep task => "maximum recursion depth exceeded while " ++ task

def sort : LineTrouble → String
  | template trouble => trouble.sort
  | keySort _ => "TypeError"
  | style _ => "ValueError"
  | missingField _ => "ValueError"
  | fieldFormat _ typed => if typed then "ValueError" else "TypeError"
  | year _ => "ValueError"
  | notCallable _ => "TypeError"
  | tooManyDigits => "ValueError"
  | tooDeep _ => "RecursionError"

/-- Whether the stack had no room. -/
def isDeep : LineTrouble → Bool
  | tooDeep _ => true
  | _ => false

end LineTrouble

/-- The text of a value, where the stack has room for so many levels. -/
def told (levels : Nat) (v : Value) : Except LineTrouble String :=
  if levels < v.depth then .error (.tooDeep "getting the repr of an object")
  else if v.isShort then .ok v.display
  else .error .tooManyDigits

/-! ## Exceptions -/

/-- An exception without a place in the program. -/
structure Raised where
  sort : String
  details : List Value
  deriving Repr

/-- The sentence of an exception's details, or a remark where there is none. The detail of a
missing key shows its ends. -/
def Raised.words (levels : Nat) (raised : Raised) : String :=
  if levels < Value.itemsDepth raised.details ∨ Value.itemsShort raised.details = false then
    "<exception str() failed>"
  else
    match raised.details with
    | [] => ""
    | [only] => if raised.sort = "KeyError" then only.quotedText else only.display
    | many => "(" ++ String.ofList (Value.joined ", " (Value.quotedItems many)) ++ ")"

def Raised.line (levels : Nat) (raised : Raised) : String :=
  let words := raised.words levels
  if words = "" then raised.sort else raised.sort ++ ": " ++ words

/-! ## Records -/

/-- What a log handler gets. -/
structure Record where
  attributes : Fields
  arguments : Arguments
  exception : Option Raised
  extras : Fields
  deriving Repr

namespace Record

def attributeNames : List String :=
  ["name", "msg", "args", "levelname", "levelno", "pathname", "filename", "module", "exc_info",
   "exc_text", "stack_info", "lineno", "funcName", "created", "msecs", "relativeCreated",
   "thread", "threadName", "processName", "process"]

/-- The names that are no extra fields: those every record has, and two that are filled in
when a line is made. -/
def reservedNames : List String := attributeNames ++ ["message", "asctime"]

/-- An attribute, or the missing value. -/
def get (record : Record) (name : String) : Value := (record.attributes.get? name).getD .null

/-- Adds a field, or replaces the attribute of its name. -/
def set (record : Record) (name : String) (value : Value) : Record :=
  if name = "args" then
    { record with arguments := if value.isSomething then .single value else .several [] }
  else if reservedNames.contains name then
    { record with attributes := record.attributes.put name value }
  else { record with extras := record.extras.put name value }

def setAll (record : Record) (fields : Fields) : Record :=
  fields.foldl (fun done field => done.set field.1 field.2) record

/-! ## Places -/

/-- The part of a path behind its last slash. -/
def fileName (path : List Char) : List Char :=
  (path.reverse.takeWhile (· != '/')).reverse

/-- A file's name without its last extension; dots in front belong to the name. -/
def stemOf (file : List Char) : List Char :=
  let dots := file.takeWhile (· == '.')
  let body := file.drop dots.length
  if body.contains '.' then
    dots ++ ((body.reverse.dropWhile (· != '.')).drop 1).reverse
  else file

/-- The file and the module of a path. -/
def placeOf : Value → Value × Value
  | .text path =>
    let file := fileName path.toList
    (.text (String.ofList file), .text (String.ofList (stemOf file)))
  | other => (other, .text "Unknown module")

/-- The arguments of a message; a single dictionary with entries is looked into by key. -/
def argumentsOf : List Value → Arguments
  | [.dict (entry :: rest)] => .single (.dict (entry :: rest))
  | values => .several values

def make (name : Value) (level : Int) (path line : Value) (message : Value) (arguments : List Value)
    (function : Value) (exception : Option Raised) (created : Value) : Record where
  attributes :=
    [("name", name), ("msg", message), ("levelname", .text (levelName level)),
     ("levelno", .int level), ("pathname", path), ("filename", (placeOf path).1),
     ("module", (placeOf path).2), ("exc_text", .null), ("stack_info", .null), ("lineno", line),
     ("funcName", function), ("created", created)]
  arguments := argumentsOf arguments
  exception := exception
  extras := []

/-- The record of an entry that a logger let through. Where in the program it was written
is not part of an entry. -/
def ofEntry (logger : String) (entry : Entry) : Record :=
  (make (.text logger) entry.level.number (.text "") (.int 0) (.text entry.message) [] .null none
    (.int 0)).setAll entry.fields

/-! ## The sentence -/

/-- The name that a record is asked for its sentence by. An extra field of this name stands in
the way. -/
def sentenceName : String := "getMessage"

def sentence (levels : Nat) (record : Record) : Except LineTrouble String :=
  match record.extras.get? sentenceName with
  | some value => .error (.notCallable value.fullKindName)
  | none => do
    let message ← told levels (record.get "msg")
    match record.arguments with
    | .several [] => pure message
    | arguments =>
      let filled ← (fill message.toList arguments).mapError LineTrouble.template
      pure (String.ofList filled)

end Record

end EarningsLedger.Log
