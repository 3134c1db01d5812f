import EarningsLedger.Schema.ColumnType

/-!
# The declaration of the table

`declaration` writes the statement that makes the table of earnings, in any dialect.
What differs is the types, where a default stands, and how a database is told to number
the rows itself.
-/

namespace EarningsLedger.Schema

/-- A column of the table. No column may be left empty. -/
structure Column where
  name : String
  type : ColumnType
  numbered : Bool
  default : Option String
  deriving DecidableEq, Repr

namespace Column

def plain (name : String) (type : ColumnType) : Column := ⟨name, type, false, none⟩

/-- Whether a default stands behind the words that forbid empty cells. -/
def defaultLast : Dialect → Bool
  | .mysql | .mariadb | .mssql => true
  | _ => false

/-- The type of a column, which may say that the rows are numbered. -/
def typeText (dialect : Dialect) (column : Column) : String :=
  if column.numbered && dialect == .postgresql then "SERIAL" else column.type.text dialect

def numbering : Dialect → String
  | .mysql | .mariadb => " AUTO_INCREMENT"
  | .sqlite => " PRIMARY KEY AUTOINCREMENT"
  | .mssql => " IDENTITY"
  | .postgresql | .oracle => ""

def text (dialect : Dialect) (column : Column) : String :=
  let default := (column.default.map fun words => " DEFAULT " ++ words).getD ""
  column.name ++ " " ++ column.typeText dialect ++
    (if defaultLast dialect then " NOT NULL" ++ default else default ++ " NOT NULL") ++
    (if column.numbered then numbering dialect else "")

end Column

/-- The defaults of the two stamps. -/
structure StampDefaults where
  created : String
  updated : String
  deriving DecidableEq, Repr

/-- Both stamps default to the clock of the database. -/
def StampDefaults.plain : StampDefaults := ⟨"CURRENT_TIMESTAMP", "CURRENT_TIMESTAMP"⟩

def columns (defaults : StampDefaults) : List Column :=
  [⟨"id", .integer, true, none⟩, .plain "miner_id" .integer, .plain "pool_id" .integer,
   .plain "challenge_id" .integer, ⟨"amount", .amount, false, some "0"⟩,
   ⟨"created_at", .stamp, false, some defaults.created⟩,
   ⟨"updated_at", .stamp, false, some defaults.updated⟩]

/-- The clauses behind the columns. The dialect that numbers rows by their key names the
key with the column. -/
def constraints (dialect : Dialect) : List String :=
  (if dialect = .sqlite then [] else ["PRIMARY KEY (id)"]) ++
    ["CONSTRAINT ck_earnings_amount_unsigned CHECK (amount >= 0)"]

/-- The statement that makes a table of columns and clauses. -/
def createTable (name : String) (clauses : List String) : String :=
  "CREATE TABLE " ++ name ++ " ( " ++ String.intercalate ", " clauses ++ " )"

/-- The statement that makes the table of earnings. -/
def declaration (dialect : Dialect) (defaults : StampDefaults) : String :=
  createTable "earnings"
    ((columns defaults).map (Column.text dialect) ++ constraints dialect)

end EarningsLedger.Schema
