import SqlBatch.Duration
import SqlBatch.Json.Fault
import SqlBatch.Json.Mismatch

/-! Everything that can go wrong, by cause, and the one place where causes become text. -/

namespace SqlBatch

inductive FileProblem where
  | notFound
  | noPermission
  | notDirectory
  | isDirectory
  | nameTooLong
  | nameBroken
  | malformedText
  deriving DecidableEq, Repr

def FileProblem.message : FileProblem → String
  | notFound => "No such file or directory (os error 2)"
  | noPermission => "Permission denied (os error 13)"
  | notDirectory => "Not a directory (os error 20)"
  | isDirectory => "Is a directory (os error 21)"
  | nameTooLong => "File name too long (os error 36)"
  | nameBroken => "file name contained an unexpected NUL byte"
  | malformedText => "stream did not contain valid UTF-8"

inductive SettingProblem where
  | verbosityLevel (level : Nat)
  | verbosityName (text : String)
  | backendName (text : String)
  | notObject (value : Json)
  | member (mismatch : Json.Mismatch)
  | noCredentials
  | noDatabaseFile
  | noDatabaseName
  | secureUnsupported
  | other (message : String)
  deriving Repr

def SettingProblem.message : SettingProblem → String
  | verbosityLevel n => "verbosity must be between 0 and 3, got " ++ toString n
  | verbosityName s => "unknown verbosity '" ++ s ++ "', expected 0-3, NONE, LOW, MED or FULL"
  | backendName s => "unknown backend '" ++ s ++ "', expected mysql, postgresql or sqlite"
  | notObject v => "configuration must be a JSON object, got " ++ v.text
  | member m => m.message
  | noCredentials => "Both database username and password must be defined"
  | noDatabaseFile => "sqlite backend needs a database file path"
  | noDatabaseName => "set_db requires a database name"
  | secureUnsupported => "secure connections are not supported for the postgresql backend"
  | other s => s

inductive JsonProblem where
  | badSyntax (error : Json.SyntaxError)
  | mismatch (mismatch : Json.Mismatch)
  deriving Repr

def JsonProblem.message : JsonProblem → String
  | badSyntax e => e.message
  | mismatch m => m.message

inductive Failure where
  | io (problem : FileProblem)
  | json (problem : JsonProblem)
  | sqlite (detail : String)
  | postgresql (detail : String)
  | mysql (detail : String)
  | configuration (problem : SettingProblem)
  | connection (detail : String)
  | statement (file : String) (index : Nat) (detail : String)
  | useDatabase (database detail : String)
  | timeout (bound : Duration)
  deriving Repr

namespace Failure

def message : Failure → String
  | io p => "IO error: " ++ p.message
  | json p => "JSON error: " ++ p.message
  | sqlite s => "SQLite error: " ++ s
  | postgresql s => "PostgreSQL error: " ++ s
  | mysql s => "MySQL error: " ++ s
  | configuration p => "Configuration error: " ++ p.message
  | connection s => "Connection error: " ++ s
  | statement file index detail =>
    "Command#" ++ toString index ++ " in file '" ++ file ++ "' failed :: " ++ detail
  | useDatabase database detail =>
    "USE DB Command failed for `" ++ database ++ "` :: " ++ detail
  | timeout bound => "Statement timed out after " ++ bound.text

def isStatementFailure : Failure → Bool
  | statement .. | useDatabase .. => true
  | _ => false

/-- The failure and, where another failure is behind it, that one, outermost first. -/
def chain (f : Failure) : List String :=
  match f with
  | io p => [f.message, p.message]
  | json p => [f.message, p.message]
  | sqlite s => [f.message, s]
  | postgresql s => [f.message, s]
  | mysql s => [f.message, s]
  | _ => [f.message]

end Failure
end SqlBatch
