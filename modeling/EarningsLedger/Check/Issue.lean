import EarningsLedger.Calendar.Lenient
import EarningsLedger.Value.Text

/-!
# Issues of a request

A check that fails names an issue: where in the request it was found, what is wrong,
and the value that is to blame. `Cause.code` is the short name of a cause and
`Cause.message` its sentence.
-/

namespace EarningsLedger.Check

open Calendar

/-- One step from a request to a part of it. -/
inductive PathStep where
  | name (s : String)
  | position (n : Int)
  deriving DecidableEq, Repr

/-- What can be wrong with a value. -/
inductive Cause where
  | missing
  | notInteger
  | integerText
  | integerSize
  | integerFraction
  | notFinite
  | below (bound : Int)
  | above (bound : Int)
  | notMoment
  | moment (trouble : Lenient.Trouble)
  | dateText (trouble : Lenient.Trouble)
  | notDictionary
  | notObject
  | notList
  | notText
  | textEncoding
  | notTruth
  | truthText
  deriving DecidableEq, Repr

def troubleText : Lenient.Trouble → String
  | .tooShort => "input is too short"
  | .yearDigit => "invalid character in year"
  | .dateSeparator => "invalid date separator, expected \x60-\x60"
  | .monthDigit => "invalid character in month"
  | .dayDigit => "invalid character in day"
  | .noSuchMonth => "month value is outside expected range of 1-12"
  | .noSuchDay => "day value is outside expected range"
  | .extraCharacters => "unexpected extra characters at the end of the input"
  | .tooEarly => "dates before 1600 are not supported as unix timestamps"
  | .tooLate => "dates after 9999 are not supported as unix timestamps"
  | .missingNumber => "NaN values not permitted"
  | .yearZero => "year 0 is out of range"

namespace Cause

def code : Cause → String
  | missing => "missing"
  | notInteger => "int_type"
  | integerText => "int_parsing"
  | integerSize => "int_parsing_size"
  | integerFraction => "int_from_float"
  | notFinite => "finite_number"
  | below _ => "greater_than_equal"
  | above _ => "less_than_equal"
  | notMoment => "datetime_type"
  | moment _ => "datetime_parsing"
  | dateText _ => "datetime_from_date_parsing"
  | notDictionary => "dict_type"
  | notObject => "model_attributes_type"
  | notList => "list_type"
  | notText => "string_type"
  | textEncoding => "string_unicode"
  | notTruth => "bool_type"
  | truthText => "bool_parsing"

def message : Cause → String
  | missing => "Field required"
  | notInteger => "Input should be a valid integer"
  | integerText => "Input should be a valid integer, unable to parse string as an integer"
  | integerSize => "Unable to parse input string as an integer, exceeded maximum size"
  | integerFraction =>
    "Input should be a valid integer, got a number with a fractional part"
  | notFinite => "Input should be a finite number"
  | below bound => "Input should be greater than or equal to " ++ Text.intText bound
  | above bound => "Input should be less than or equal to " ++ Text.intText bound
  | notMoment => "Input should be a valid datetime"
  | moment trouble => "Input should be a valid datetime, " ++ troubleText trouble
  | dateText trouble => "Input should be a valid datetime or date, " ++ troubleText trouble
  | notDictionary => "Input should be a valid dictionary"
  | notObject => "Input should be a valid dictionary or object to extract fields from"
  | notList => "Input should be a valid list"
  | notText => "Input should be a valid string"
  | textEncoding =>
    "Input should be a valid string, unable to parse raw data as a unicode string"
  | notTruth => "Input should be a valid boolean"
  | truthText => "Input should be a valid boolean, unable to interpret input"

def isRange : Cause → Bool
  | below _ => true
  | above _ => true
  | _ => false

end Cause

/-- A failed check. -/
structure Issue where
  path : List PathStep
  cause : Cause
  input : Value
  deriving Repr

/-- The issue seen from one step further out. -/
def Issue.under (step : PathStep) (issue : Issue) : Issue :=
  { issue with path := step :: issue.path }

/-- The issues of a request, under the name of its form. -/
structure Issues where
  title : String
  issues : List Issue
  deriving Repr, Inhabited

end EarningsLedger.Check
