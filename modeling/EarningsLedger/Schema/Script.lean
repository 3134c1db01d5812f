import EarningsLedger.Schema.Address
import EarningsLedger.Schema.Revision
import EarningsLedger.Schema.TableText

/-!
# Scripts

A script brings a database from one place in the history of its table to another. It
makes or drops the table with everything around it, keeps the number of the last step in
a table of its own, and is written section by section the way the dialect's own tools
expect it. `script` writes one for an address and a journey.
-/

namespace EarningsLedger.Schema

/-! ## The step that makes the table -/

/-- The defaults of the stamps. The two relatives stamp a changed row themselves. -/
def stampDefaults : Dialect → StampDefaults
  | .mysql | .mariadb =>
    ⟨"CURRENT_TIMESTAMP(6)", "CURRENT_TIMESTAMP(6) ON UPDATE CURRENT_TIMESTAMP(6)"⟩
  | .postgresql => ⟨"(now() AT TIME ZONE 'utc')", "(now() AT TIME ZONE 'utc')"⟩
  | .sqlite | .oracle | .mssql => .plain

/-- The statements that keep amounts and stamps right where the declaration cannot. -/
def guards : Dialect → List String
  | .postgresql =>
    ["ALTER TABLE earnings ADD CONSTRAINT ck_earnings_amount_max CHECK (amount <= " ++
      Text.intText amountHigh ++ ")",
     "CREATE OR REPLACE FUNCTION earnings_set_updated_at() RETURNS trigger AS $$ BEGIN " ++
      "IF NEW.updated_at = OLD.updated_at THEN " ++
      "NEW.updated_at = (clock_timestamp() AT TIME ZONE 'utc'); END IF; RETURN NEW; END; " ++
      "$$ LANGUAGE plpgsql",
     "CREATE TRIGGER trg_earnings_updated_at BEFORE UPDATE ON earnings " ++
      "FOR EACH ROW EXECUTE FUNCTION earnings_set_updated_at()"]
  | .sqlite =>
    ["CREATE TRIGGER trg_earnings_updated_at AFTER UPDATE ON earnings " ++
      "FOR EACH ROW WHEN NEW.updated_at = OLD.updated_at BEGIN " ++
      "UPDATE earnings SET updated_at = strftime('%Y-%m-%d %H:%M:%f', 'now') " ++
      "WHERE id = NEW.id; END"]
  | _ => []

def unguards : Dialect → List String
  | .postgresql =>
    ["DROP TRIGGER IF EXISTS trg_earnings_updated_at ON earnings",
     "DROP FUNCTION IF EXISTS earnings_set_updated_at()"]
  | .sqlite => ["DROP TRIGGER IF EXISTS trg_earnings_updated_at"]
  | _ => []

def makeTable (dialect : Dialect) : List String :=
  declaration dialect (stampDefaults dialect) :: guards dialect

def dropTable (dialect : Dialect) : List String :=
  unguards dialect ++ ["DROP TABLE earnings"]

/-! ## The number of the last step -/

/-- The statement that makes the table of the last step. -/
def versionTable (dialect : Dialect) : String :=
  createTable "alembic_version"
    ["version_num " ++ (if dialect = .oracle then "VARCHAR2(32 CHAR)" else "VARCHAR(32)") ++
      " NOT NULL",
     "CONSTRAINT alembic_version_pkc PRIMARY KEY (version_num)"]

/-- The statement that notes a step; a database that can give the new row back does. -/
def noteStep (dialect : Dialect) (revision : String) : String :=
  let values := "VALUES ('" ++ revision ++ "')"
  let into := "INSERT INTO alembic_version (version_num) "
  match dialect with
  | .mysql => into ++ values
  | .mariadb | .postgresql => into ++ values ++ " RETURNING alembic_version.version_num"
  | .sqlite => into ++ values ++ " RETURNING version_num"
  | .oracle => into ++ values ++ " RETURNING alembic_version.version_num INTO :ret_0"
  | .mssql => into ++ "OUTPUT inserted.version_num " ++ values

def forgetStep (revision : String) : String :=
  "DELETE FROM alembic_version WHERE alembic_version.version_num = '" ++ revision ++ "'"

/-! ## Steps -/

/-- The revisions between two places, from the lower one up. -/
def revisionsBetween (low high : Nat) : List String := (history.take high).drop low

/-- The statements of a journey between two places. From the ground up, the table of the
last step is made first. -/
def journeyStatements (dialect : Dialect) (direction : Direction) (first last : Nat) :
    List String :=
  match direction with
  | .up =>
    let revisions := revisionsBetween first last
    (if first = 0 ∧ revisions ≠ [] then [versionTable dialect] else []) ++
      revisions.flatMap fun revision => makeTable dialect ++ [noteStep dialect revision]
  | .down =>
    (revisionsBetween last first).reverse.flatMap fun revision =>
      dropTable dialect ++ [forgetStep revision]

/-! ## Sections -/

/-- A piece of a script: its words, and whether a section ends with it. -/
structure Piece where
  words : String
  ends : Bool
  deriving DecidableEq, Repr

/-- The pieces of a statement. One dialect marks the end of a batch behind every
statement, another one has no other end than such a mark. -/
def statementPieces (dialect : Dialect) (statement : String) : List Piece :=
  match dialect with
  | .mssql => [⟨statement, true⟩, ⟨"GO", false⟩]
  | .oracle => [⟨statement, false⟩, ⟨"/", false⟩]
  | _ => [⟨statement, true⟩]

def openingPieces : Dialect → List Piece
  | .postgresql => [⟨"BEGIN", true⟩]
  | .mssql => [⟨"BEGIN TRANSACTION", true⟩]
  | _ => []

def closingPieces : Dialect → List Piece
  | .postgresql => [⟨"COMMIT", true⟩]
  | .mssql => [⟨"COMMIT", true⟩, ⟨"GO", false⟩]
  | _ => []

def scriptPieces (dialect : Dialect) (statements : List String) : List Piece :=
  openingPieces dialect ++ statements.flatMap (statementPieces dialect) ++ closingPieces dialect

/-- The sections of pieces; `held` is what the open section says so far. -/
def sectionsFrom (held : List String) : List Piece → List String
  | [] => if held = [] then [] else [String.intercalate " " held]
  | piece :: rest =>
    if piece.ends then
      String.intercalate " " (held ++ [piece.words]) :: sectionsFrom [] rest
    else sectionsFrom (held ++ [piece.words]) rest

/-! ## Scripts -/

/-- Why there is no script. -/
inductive ScriptTrouble where
  | address (trouble : AddressTrouble)
  | journey (trouble : JourneyTrouble)
  deriving DecidableEq, Repr

def ScriptTrouble.sort : ScriptTrouble → String
  | .address trouble => trouble.sort
  | .journey trouble => trouble.sort

def ScriptTrouble.message : ScriptTrouble → String
  | .address trouble => trouble.message
  | .journey trouble => trouble.message

/-- The sections of the script for a database and a journey. The journey must be written
well before the address is looked at, and is made afterwards. -/
def script (address : String) (direction : Direction) (journey : String) :
    Except ScriptTrouble (List String) := do
  let (start, target) ← (Journey.ends direction journey).mapError .journey
  let dialect ← (Address.dialectOf address).mapError .address
  let (first, last) ← (Journey.places direction start target).mapError .journey
  pure (sectionsFrom [] (scriptPieces dialect (journeyStatements dialect direction first last)))

end EarningsLedger.Schema
