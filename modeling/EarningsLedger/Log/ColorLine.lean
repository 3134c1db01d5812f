import EarningsLedger.Log.JsonLine

/-!
# Colored lines

A line for a terminal shows when a record was written, its level in a color, its logger,
and its sentence with the event behind it. The sentence itself may be set into a template
of attributes. An exception and a stack follow on lines of their own. The time is that of a
local clock.
-/

namespace EarningsLedger.Log

open Calendar Text

/-! ## Colors -/

def resetColor : String := "\x1b[0m"

/-- The color of a level by its name. -/
def levelColor : Value → String
  | .text "DEBUG" => "\x1b[36m"
  | .text "INFO" => "\x1b[32m"
  | .text "WARNING" => "\x1b[33m"
  | .text "ERROR" => "\x1b[31m"
  | .text "CRITICAL" => "\x1b[41m"
  | _ => resetColor

/-- A level name in eight columns; only a text can be set in columns. -/
def levelColumn : Value → Except LineTrouble String
  | .text s => .ok (String.ofList (padRight 8 ' ' s.toList))
  | .int _ => .error (.fieldFormat "int" true)
  | .bool _ => .error (.fieldFormat "bool" true)
  | .float _ => .error (.fieldFormat "float" true)
  | other => .error (.fieldFormat other.kindName false)

/-! ## When -/

/-- The microseconds from the year 1 to a count of seconds from 1970. -/
def createdMicros : Value → Int
  | .int n => (epochMicros : Int) + n * 1000000
  | .float (.finite negative mantissa exponent) =>
    let value := Number.Binary64.ratio mantissa exponent
    let micros : Int := Number.roundHalfEven (value.1 * 1000000) value.2
    (epochMicros : Int) + (if negative then -micros else micros)
  | _ => epochMicros

/-- What a local clock, so many seconds ahead of universal time, says at a count of seconds
from 1970. -/
def createdInstant (ahead : Int → Int) (created : Value) : Except LineTrouble Instant :=
  let universal := createdMicros created
  let micros := universal + ahead universal * 1000000
  match Instant.ofMicros? micros with
  | some t => .ok t
  | none => .error (.year (yearOf micros))

/-! ## The template -/

/-- A template without any directive that looks up an attribute is refused. -/
def looksUp (format : List Char) : Bool :=
  let letters := "diouxefgcrsa%".toList
  (Message.Piece.ofChars format).any fun piece =>
    match piece with
    | .directive d =>
      let word := (d.key.map String.toList).getD []
      word ≠ [] && word.all isWordChar &&
        (d.letter.map fun c => letters.contains (Number.lowerChar c)).getD false
    | _ => false
where
  isWordChar (c : Char) : Bool := c.isAlphanum || c == '_' || 128 ≤ c.toNat

/-- The attributes of a record as a template sees them. -/
def attributeFields (record : Record) (sentence : String) (stamp : String) : Fields :=
  ((record.attributes ++ record.extras).put "message" (.text sentence)).put "asctime" (.text stamp)

/-- The stamp of a record in a template: to the millisecond, after a comma. -/
def stampText (t : Instant) : String :=
  t.secondText ++ "," ++ String.ofList (padDigits 3 (t.timeOfDay.micro / 1000))

/-- The sentence of a record, set into a template of attributes. -/
def setInto (levels : Nat) (format : String) (record : Record) (stamp : String) :
    Except LineTrouble String := do
  if !looksUp format.toList then throw (.style format)
  let sentence ← record.sentence levels
  let fields := attributeFields record sentence stamp
  let arguments := Message.Arguments.single (Value.ofFields fields)
  match Message.fill format.toList arguments with
  | .ok cs => pure (String.ofList cs)
  | .error (.noKey name) => throw (.missingField name)
  | .error trouble => throw (.template trouble)

/-! ## The line -/

/-- A text with another on a line of its own behind it. -/
def onNextLine (text more : String) : String :=
  if text.toList.getLast? = some '\n' then text ++ more else text ++ "\n" ++ more

/-- A sentence with the exception and the stack of its record. -/
def withTail (levels : Nat) (record : Record) (sentence : String) : String :=
  let exception :=
    match record.get "exc_text", record.exception with
    | .null, some raised => raised.line levels
    | given, _ => if given.isSomething then given.display else ""
  let told := if exception = "" then sentence else onNextLine sentence exception
  let stack := record.get "stack_info"
  if stack.isSomething then onNextLine told stack.display else told

/-- A sentence with the event of its record behind it. -/
def withEvent (levels : Nat) (record : Record) (sentence : String) : Except LineTrouble String :=
  match record.extras.get? "event" with
  | some event =>
    if event.isSomething then (told levels event).map fun shown => sentence ++ " (" ++ shown ++ ")"
    else .ok sentence
  | none => .ok sentence

/-- The colored line of a record under a template. -/
def colorLine (format : String) (occasion : Occasion) (record : Record) :
    Except LineTrouble String := do
  if !looksUp format.toList then throw (.style format)
  let levels := occasion.levels
  let t ← createdInstant occasion.ahead (record.get "created")
  let sentence ← setInto levels format record (stampText t)
  let message ← withEvent levels record (withTail levels record sentence)
  let level ← levelColumn (record.get "levelname")
  let name ← told levels (record.get "name")
  pure (t.secondText ++ " " ++ levelColor (record.get "levelname") ++ level ++ resetColor ++
    " [" ++ name ++ "] " ++ message)

def plainFormat : String := "%(message)s"

end EarningsLedger.Log
