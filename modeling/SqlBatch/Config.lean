import SqlBatch.Backend
import SqlBatch.Json.Parser
import SqlBatch.Policy

/-! Settings of a run. They are read from the members of a JSON object, each recognised member by
itself and in the order of their names, so that the first bad one is reported; other members mean
nothing. They are written with every member present. -/

namespace SqlBatch

structure Config where
  backend : Backend := .mysql
  username : Option String := none
  password : Option String := none
  host : String := "localhost"
  port : Option UInt16 := none
  database : Option String := none
  verbosity : Verbosity := .summary
  force : Bool := true
  serial : Bool := false
  setDb : Bool := false
  secure : Bool := false
  deriving DecidableEq, Repr, Inhabited

namespace Config

inductive Key where
  | backend | database | force | host | password | port | secure | serial | setDb | username
  | verbosity
  deriving DecidableEq, Repr

namespace Key

def name : Key → String
  | backend => "backend"
  | database => "database"
  | force => "force"
  | host => "host"
  | password => "password"
  | port => "port"
  | secure => "secure"
  | serial => "serial"
  | setDb => "set_db"
  | username => "username"
  | verbosity => "verbosity"

def all : List Key :=
  [backend, database, force, host, password, port, secure, serial, setDb, username, verbosity]

def ofName? (s : String) : Option Key := all.find? (·.name = s)

def read (key : Key) (v : Json) : Except Json.Mismatch (Config → Config) :=
  match key with
  | backend => (Backend.ofJson v).map fun x c => { c with backend := x }
  | database => (Json.readOption Json.readString v).map fun x c => { c with database := x }
  | force => (Json.readBool v).map fun x c => { c with force := x }
  | host => (Json.readString v).map fun x c => { c with host := x }
  | password => (Json.readOption Json.readString v).map fun x c => { c with password := x }
  | port => (Json.readOption Json.readPort v).map fun x c => { c with port := x }
  | secure => (Json.readBool v).map fun x c => { c with secure := x }
  | serial => (Json.readBool v).map fun x c => { c with serial := x }
  | setDb => (Json.readBool v).map fun x c => { c with setDb := x }
  | username => (Json.readOption Json.readString v).map fun x c => { c with username := x }
  | verbosity => (Verbosity.ofJson v).map fun x c => { c with verbosity := x }

def write (key : Key) (c : Config) : Json :=
  match key with
  | backend => c.backend.toJson
  | database => .ofString? c.database
  | force => .bool c.force
  | host => .str c.host
  | password => .ofString? c.password
  | port => c.port.elim .null fun p => .nat p.toNat
  | secure => .bool c.secure
  | serial => .bool c.serial
  | setDb => .bool c.setDb
  | username => .ofString? c.username
  | verbosity => c.verbosity.toJson

end Key

/-- Applies one member of an object; a name that is no key changes nothing. -/
def readMember (c : Config) (name : String) (v : Json) : Except Json.Mismatch Config :=
  match Key.ofName? name with
  | some key => (key.read v).map (· c)
  | none => .ok c

def readMembers : Config → Json.Members → Except Json.Mismatch Config
  | c, [] => .ok c
  | c, (name, v) :: ms =>
    match c.readMember name v with
    | .ok c' => c'.readMembers ms
    | .error e => .error e

def ofJson : Json → Except SettingProblem Config
  | .obj ms => (readMembers {} ms).mapError .member
  | v => .error (.notObject v)

def toJson (c : Config) : Json := .obj (Key.all.map fun key => (key.name, key.write c))

def ofBytes (bytes : List UInt8) : Except Failure Config :=
  match Text.Utf8.decode? bytes with
  | none => .error (.io .malformedText)
  | some text =>
    match Json.parse text with
    | .error e => .error (.json (.badSyntax e))
    | .ok v => (ofJson v).mapError .configuration

def effectivePort (c : Config) : Option UInt16 := c.port <|> c.backend.defaultPort?

/-- The host to connect to; a blank one means the local host. -/
def effectiveHost (c : Config) : String :=
  if Text.isBlankString c.host then "localhost" else c.host

def present (s : Option String) : Bool := s.any (!·.isEmpty)

def hasDatabase (c : Config) : Bool := c.database.any (!Text.isBlankString ·)

def validate (c : Config) : Except SettingProblem Unit :=
  if c.backend.requiresCredentials && !(present c.username && present c.password) then
    .error .noCredentials
  else if c.backend = .sqlite ∧ !c.hasDatabase then .error .noDatabaseFile
  else if c.setDb && !c.hasDatabase then .error .noDatabaseName
  else .ok ()

def policy (c : Config) : Policy :=
  let base : Policy :=
    { mode := if c.serial then .serial else .concurrent, force := c.force,
      verbosity := c.verbosity }
  match c.database, c.setDb with
  | some database, true => base.withDatabase database
  | _, _ => base

end Config
end SqlBatch
