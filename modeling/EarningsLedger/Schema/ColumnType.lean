import EarningsLedger.Number.ColumnInt
import EarningsLedger.Schema.Dialect
import EarningsLedger.Value.Text

/-!
# Column types

The columns of the table hold plain integers, amounts, or stamps. An amount is an
unsigned integer of 64 bits where a database has these, and a decimal number of twenty
digits where it has not. Values on their way into a column of amounts become integers:
fractions are cut off, and texts are read.
-/

namespace EarningsLedger.Schema

open Number

/-- What a column holds. -/
inductive ColumnType where
  | integer
  | amount
  | stamp
  deriving DecidableEq, Repr

def ColumnType.text (dialect : Dialect) : ColumnType → String
  | .integer => "INTEGER"
  | .amount =>
    if dialect.hasUnsigned then "BIGINT UNSIGNED"
    else if dialect = .sqlite then "BIGINT"
    else "NUMERIC(20, 0)"
  | .stamp =>
    match dialect with
    | .mysql | .mariadb => "TIMESTAMP(6)"
    | .postgresql => "TIMESTAMP WITHOUT TIME ZONE"
    | .sqlite | .mssql => "DATETIME"
    | .oracle => "DATE"

/-! ## Values as integers -/

/-- Why a value is no integer. -/
inductive IntegerTrouble where
  | noNumber (words : String)
  | unbounded (words : String)
  | unreadable (quoted : List Char)
  | tooLong (digits : Nat)
  | wrongSort (kind : String)
  | unconverted
  deriving DecidableEq, Repr

namespace IntegerTrouble

def sort : IntegerTrouble → String
  | unbounded _ => "OverflowError"
  | wrongSort _ => "TypeError"
  | unconverted => "NotImplementedError"
  | _ => "ValueError"

/-- The sentence of a trouble. A text that cannot be read is shown up to a length. -/
def message : IntegerTrouble → String
  | noNumber words => "cannot convert " ++ words ++ " to integer"
  | unbounded words => "cannot convert " ++ words ++ " to integer"
  | unreadable quoted =>
    "invalid literal for int() with base 10: " ++ String.ofList (quoted.take 200)
  | tooLong digits =>
    "Exceeds the limit (4300 digits) for integer string conversion: value has " ++
      Text.natText digits ++
      " digits; use sys.set_int_max_str_digits() to increase the limit"
  | wrongSort kind =>
    "int() argument must be a string, a bytes-like object or a real number, not '" ++ kind ++ "'"
  | unconverted => ""

/-- The trouble with a text, by what was wrong with it. -/
def ofReading (quoted : List Char) : ColumnInt.Trouble → IntegerTrouble
  | .unreadable => unreadable quoted
  | .tooLong digits => tooLong digits

end IntegerTrouble

/-- The integer that a value stands for; fractions are cut off toward zero. -/
def integerOf : Value → Except IntegerTrouble Int
  | .bool b => .ok (if b then 1 else 0)
  | .int n => .ok n
  | .float .nan => .error (.noNumber "float NaN")
  | .float (.infinite _) => .error (.unbounded "float infinity")
  | .float (.finite negative mantissa exponent) =>
    .ok (Binary64.truncate negative mantissa exponent).1
  | .decimal (.nan _ _ _) => .error (.noNumber "NaN")
  | .decimal (.infinite _) => .error (.unbounded "Infinity")
  | .decimal (.finite negative coefficient exponent) =>
    .ok (Decimal.truncate negative coefficient exponent).1
  | .text s => (ColumnInt.ofText s).mapError (.ofReading (Text.quoted s.toList))
  | .bytes data => (ColumnInt.ofBytes data).mapError (.ofReading (Text.quotedBytes data))
  | other => .error (.wrongSort other.fullKindName)

/-- A value on its way into a column of amounts. -/
def amountIn (dialect : Dialect) (value : Value) : Except IntegerTrouble Value :=
  if value.isNull then .ok .null
  else (integerOf value).map fun n =>
    if dialect.takesIntegers then .int n else .decimal (.ofInt n)

/-- A value on its way out of a column of amounts. -/
def amountOut (value : Value) : Except IntegerTrouble Value :=
  if value.isNull then .ok .null else (integerOf value).map .int

/-- A value on its way into a column. Only a column of amounts converts values; a column of
stamps declares a conversion that is not there. -/
def ColumnType.valueIn (dialect : Dialect) (value : Value) :
    ColumnType → Except IntegerTrouble Value
  | .integer => .ok value
  | .amount => amountIn dialect value
  | .stamp => .error .unconverted

/-- A value on its way out of a column. -/
def ColumnType.valueOut (value : Value) : ColumnType → Except IntegerTrouble Value
  | .integer => .ok value
  | .amount => amountOut value
  | .stamp => .error .unconverted

end EarningsLedger.Schema
