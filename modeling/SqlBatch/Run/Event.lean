import SqlBatch.Backend
import SqlBatch.Verbosity

/-! What can be observed of a run: statements issued and done, connections opened and closed, and
log notes. A note is a cause; its level, text and fields are functions of it. -/

namespace SqlBatch.Run

inductive Level where
  | debug
  | info
  | warn
  | error
  deriving DecidableEq, Repr

inductive Field where
  | number (n : Nat)
  | quoted (s : String)
  | bare (s : String)
  deriving DecidableEq, Repr

inductive Note where
  | tokenized (file : String) (count : Nat)
  | starting (file : String)
  | cannotSwitch (backend : Backend) (database : String)
  | settingDatabase (database : String)
  | databaseSet
  | switchFailed (message : String)
  /-- The text of the statement is there only at full verbosity. -/
  | executing (file : String) (index : Nat) (sql : Option String)
  | skippingBlank (index : Nat)
  | executed (file : String) (index : Nat)
  | statementFailed (file : String) (index : Nat) (detail : String)
  | finished (file : String) (attempted succeeded : Nat)
  | openingSqlite (path : String)
  | sqliteOverran (bound : Duration)
  | closingSqlite
  | sqliteStillInUse
  | connectingMysql (host : String) (port : UInt16) (database : Option String)
  | mysqlEstablished (id : Nat)
  | closingMysql
  | connectingPostgresql (host : String) (database : Option String)
  | postgresqlLost (message : String)
  | cancelFailed (message : String)
  | closingPostgresql
  | someFailed (count : Nat)
  deriving DecidableEq, Repr

namespace Note

def level : Note → Level
  | starting _ | settingDatabase _ | databaseSet | executing .. | executed .. | finished .. => .info
  | cannotSwitch .. | sqliteOverran _ | sqliteStillInUse | cancelFailed _ | someFailed _ => .warn
  | switchFailed _ | statementFailed .. | postgresqlLost _ => .error
  | _ => .debug

def executingText (file : String) (index : Nat) (sql : Option String) : String :=
  "Executing '" ++ file ++ "' query #" ++ toString index ++ " ........ " ++ sql.getD ""

def text : Note → String
  | tokenized .. => "tokenized script"
  | starting file => "Starting to process '" ++ file ++ "'"
  | cannotSwitch _ database => "backend cannot switch databases, ignoring `" ++ database ++ "`"
  | settingDatabase database => "Setting database to `" ++ database ++ "`......"
  | databaseSet => "Done"
  | switchFailed message => "USE DB Command failed :: " ++ message
  | executing file index sql => executingText file index sql
  | skippingBlank _ => "skipping blank statement"
  | executed _ index => "Successfully executed query #" ++ toString index
  | statementFailed file index detail => (Failure.statement file index detail).message
  | finished file attempted succeeded =>
    "Executed " ++ toString attempted ++ " commands from file '" ++ file ++ "' (" ++
      toString succeeded ++ " succeeded)"
  | openingSqlite _ => "opening SQLite database"
  | sqliteOverran bound => "SQLite statement finished despite exceeding " ++ bound.text
  | closingSqlite => "closing SQLite database"
  | sqliteStillInUse => "SQLite connection still in use by an abandoned statement"
  | connectingMysql .. => "connecting to MySQL"
  | mysqlEstablished _ => "MySQL connection established"
  | closingMysql => "closing MySQL connection"
  | connectingPostgresql .. => "connecting to PostgreSQL"
  | postgresqlLost _ => "PostgreSQL connection error"
  | cancelFailed _ => "failed to cancel timed-out PostgreSQL statement"
  | closingPostgresql => "closing PostgreSQL connection"
  | someFailed _ => "some statements failed"

def fields : Note → List (String × Field)
  | tokenized file count => [("file", .quoted file), ("statements", .number count)]
  | starting file => [("file", .quoted file)]
  | cannotSwitch backend _ => [("backend", .bare backend.name)]
  | executing file index _ | executed file index | statementFailed file index _ =>
    [("file", .quoted file), ("index", .number index)]
  | skippingBlank index => [("index", .number index)]
  | finished file attempted succeeded =>
    [("file", .quoted file), ("attempted", .number attempted), ("succeeded", .number succeeded)]
  | openingSqlite path => [("path", .quoted path)]
  | connectingMysql host port database =>
    [("host", .bare host), ("port", .number port.toNat),
      ("database", .bare (Text.quotedOption database))]
  | mysqlEstablished id => [("connection_id", .number id)]
  | connectingPostgresql host database =>
    [("host", .quoted host), ("database", .bare (Text.quotedOption database))]
  | postgresqlLost message | cancelFailed message => [("error", .bare message)]
  | someFailed count => [("failed", .number count)]
  | settingDatabase _ | databaseSet | switchFailed _ | sqliteOverran _ | closingSqlite
  | sqliteStillInUse | closingMysql | closingPostgresql => []

end Note

inductive Sighting where
  | mysqlLogin (user : String) (database : Option String) (hasPassword : Bool)
  | postgresqlLogin (user : String) (database : Option String) (password : String)
  | query (sql : String)
  | cancel (process key : Nat)
  | hangup
  | quit
  | lost
  deriving DecidableEq, Repr

inductive Event where
  | issue (sql : String) (bound : Duration)
  | done (sql : String) (ok : Bool)
  | connect (backend : Backend) (host : String) (port : Option UInt16)
  | close
  | log (note : Note)
  | seen (sighting : Sighting)
  deriving DecidableEq, Repr

end SqlBatch.Run
