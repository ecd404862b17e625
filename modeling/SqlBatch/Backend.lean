import SqlBatch.Failure
import SqlBatch.Text.Identifier

/-! Database backends: their names, their ports, and the statement by which a session switches to
a database. The name of the database stands in it as one quoted identifier. -/

namespace SqlBatch

inductive Backend where
  | mysql
  | postgresql
  | sqlite
  deriving DecidableEq, Repr, Inhabited

namespace Backend

def name : Backend → String
  | mysql => "mysql"
  | postgresql => "postgresql"
  | sqlite => "sqlite"

def names : List (String × Backend) :=
  [("mariadb", mysql), ("mysql", mysql), ("postgres", postgresql), ("postgresql", postgresql),
    ("sqlite", sqlite)]

def defaultPort? : Backend → Option UInt16
  | mysql => some 3306
  | postgresql => some 5432
  | sqlite => none

def requiresCredentials : Backend → Bool
  | mysql | postgresql => true
  | sqlite => false

def ofText (text : String) : Except SettingProblem Backend :=
  match names.lookup (String.ofList (text.toList.map Char.toLower)) with
  | some b => .ok b
  | none => .error (.backendName text)

def toJson (b : Backend) : Json := .str b.name

def ofJson (v : Json) : Except Json.Mismatch Backend := Json.readChoice names v

theorem ofJson_toJson (b : Backend) : ofJson b.toJson = .ok b := by
  cases b <;> rfl

/-- The statement that makes `database` current; PostgreSQL can only make the schema of that name
the default, and SQLite has no such statement. -/
def useDatabase? : Backend → String → Option String
  | mysql, database => some ("USE " ++ Text.Identifier.quote '`' database)
  | postgresql, database => some ("SET search_path TO " ++ Text.Identifier.quote '"' database)
  | sqlite, _ => none

end Backend
end SqlBatch
