import SqlBatch.Config

/-! The command line. Arguments are read from left to right; an option holds its value back until
the next option, flag or file ends it, and only then is the value checked. Variables of the
environment stand in for options and flags that are absent, and are checked after all arguments.
That a file is named is checked last. -/

namespace SqlBatch.Cli

/-- Why the arguments are not a call, or not a call that runs anything. -/
inductive UsageError where
  | missingFile
  | unknownArgument
  | invalidValue
  | valueValidation
  | argumentConflict
  | tooManyValues
  | displayHelp
  | displayVersion
  deriving DecidableEq, Repr

inductive Arg where
  | config | backend | user | password | host | port | database | verbosity
  | noForce | serial | setDb | secure
  deriving DecidableEq, Repr

namespace Arg

def all : List Arg :=
  [config, backend, user, password, host, port, database, verbosity, noForce, serial, setDb,
    secure]

def isFlag : Arg → Bool
  | noForce | serial | setDb | secure => true
  | _ => false

def long : Arg → String
  | config => "config"
  | backend => "backend"
  | user => "user"
  | password => "password"
  | host => "host"
  | port => "port"
  | database => "database"
  | verbosity => "verbosity"
  | noForce => "no-force"
  | serial => "serial"
  | setDb => "set-db"
  | secure => "secure"

def short? : Arg → Option Char
  | user => some 'u'
  | password => some 'p'
  | database => some 'd'
  | verbosity => some 'v'
  | _ => none

def variableName : Arg → String
  | config => "SQLSCRIPT_CONFIG"
  | backend => "SQLSCRIPT_BACKEND"
  | user => "SQLSCRIPT_USER"
  | password => "SQLSCRIPT_PASSWORD"
  | host => "SQLSCRIPT_HOST"
  | port => "SQLSCRIPT_PORT"
  | database => "SQLSCRIPT_DATABASE"
  | verbosity => "SQLSCRIPT_VERBOSITY"
  | noForce => "SQLSCRIPT_NO_FORCE"
  | serial => "SQLSCRIPT_SERIAL"
  | setDb => "SQLSCRIPT_SET_DB"
  | secure => "SQLSCRIPT_SECURE"

def ofLong? (name : String) : Option Arg := all.find? (·.long = name)

def ofShort? (c : Char) : Option Arg := all.find? (·.short? = some c)

end Arg

/-- What a command line or an environment sets; all else is absent. -/
structure Given where
  config : Option String := none
  backend : Option Backend := none
  user : Option String := none
  password : Option String := none
  host : Option String := none
  port : Option UInt16 := none
  database : Option String := none
  verbosity : Option Verbosity := none
  noForce : Option Bool := none
  serial : Option Bool := none
  setDb : Option Bool := none
  secure : Option Bool := none
  deriving DecidableEq, Repr

def portNumber? (text : String) : Option UInt16 :=
  match text.toList with
  | '-' :: digits =>
    if digits.head?.any Char.isDigit && Text.natural? 0 digits = some 0 then some 0 else none
  | cs => (Text.natural? 65535 cs).map Nat.toUInt16

def truth? : String → Option Bool
  | "true" => some true
  | "false" => some false
  | _ => none

def Arg.read (a : Arg) (text : String) : Except UsageError (Given → Given) :=
  let flag (set : Bool → Given → Given) : Except UsageError (Given → Given) :=
    match truth? text with
    | some b => .ok (set b)
    | none => .error .invalidValue
  match a with
  | config =>
    if text.isEmpty then .error .invalidValue else .ok fun g => { g with config := some text }
  | backend =>
    match Backend.ofText text with
    | .ok b => .ok fun g => { g with backend := some b }
    | .error _ => .error .valueValidation
  | user => .ok fun g => { g with user := some text }
  | password => .ok fun g => { g with password := some text }
  | host => .ok fun g => { g with host := some text }
  | port =>
    match portNumber? text with
    | some p => .ok fun g => { g with port := some p }
    | none => .error .valueValidation
  | database => .ok fun g => { g with database := some text }
  | verbosity =>
    match Verbosity.ofText text with
    | .ok v => .ok fun g => { g with verbosity := some v }
    | .error _ => .error .valueValidation
  | noForce => flag fun b g => { g with noForce := some b }
  | serial => flag fun b g => { g with serial := some b }
  | setDb => flag fun b g => { g with setDb := some b }
  | secure => flag fun b g => { g with secure := some b }

namespace Given

def has (g : Given) : Arg → Bool
  | .config => g.config.isSome
  | .backend => g.backend.isSome
  | .user => g.user.isSome
  | .password => g.password.isSome
  | .host => g.host.isSome
  | .port => g.port.isSome
  | .database => g.database.isSome
  | .verbosity => g.verbosity.isSome
  | .noForce => g.noForce.isSome
  | .serial => g.serial.isSome
  | .setDb => g.setDb.isSome
  | .secure => g.secure.isSome

def take (g : Given) (a : Arg) (text : String) : Except UsageError Given :=
  if g.has a then .error .argumentConflict else (a.read text).map (· g)

def takeVariable (environment : String → Option String) (g : Given) (a : Arg) :
    Except UsageError Given :=
  if g.has a then .ok g
  else
    match environment a.variableName with
    | some text => (a.read text).map (· g)
    | none => .ok g

def takeVariables (environment : String → Option String) (g : Given) : Except UsageError Given :=
  Arg.all.foldlM (takeVariable environment) g

end Given

/-- What is held back until the next argument. -/
inductive Pending where
  | nothing
  | wanting (a : Arg)
  | value (a : Arg) (text : String)
  | paths (latestFirst : List String)
  deriving DecidableEq, Repr

structure Reading where
  given : Given := {}
  files : List String := []
  pending : Pending := .nothing
  onlyFiles : Bool := false
  deriving DecidableEq, Repr

namespace Reading

def settle (r : Reading) : Except UsageError Reading :=
  match r.pending with
  | .nothing => .ok r
  | .wanting _ => .error .invalidValue
  | .value a text =>
    (r.given.take a text).map fun g => { r with given := g, pending := .nothing }
  | .paths latestFirst =>
    if latestFirst.any String.isEmpty then .error .invalidValue
    else .ok { r with files := r.files ++ latestFirst.reverse, pending := .nothing }

def takeNow (r : Reading) (a : Arg) (text : String) : Except UsageError Reading := do
  let r ← r.settle
  pure { r with given := ← r.given.take a text }

def option (r : Reading) (a : Arg) (attached : Option String) : Except UsageError Reading :=
  match attached with
  | some text => r.takeNow a text
  | none => r.settle.map fun r => { r with pending := .wanting a }

def stop (r : Reading) (why : UsageError) : Except UsageError Reading := do
  let _ ← r.settle
  throw why

def long (r : Reading) (body : List Char) : Except UsageError Reading :=
  let name := String.ofList (body.takeWhile (· != '='))
  let attached :=
    match body.dropWhile (· != '=') with
    | [] => none
    | _ :: text => some (String.ofList text)
  match Arg.ofLong? name with
  | some a =>
    if !a.isFlag then r.option a attached
    else if attached.isSome then .error .tooManyValues
    else r.takeNow a "true"
  | none =>
    if name = "help" ∨ name = "version" then
      if attached.isSome then .error .tooManyValues
      else r.stop (if name = "help" then .displayHelp else .displayVersion)
    else .error .unknownArgument

def short (r : Reading) (c : Char) (rest : List Char) : Except UsageError Reading :=
  match Arg.ofShort? c with
  | some a =>
    r.option a
      (match rest with
      | [] => none
      | '=' :: text => some (String.ofList text)
      | text => some (String.ofList text))
  | none =>
    if c = 'h' then r.stop .displayHelp
    else if c = 'V' then r.stop .displayVersion
    else .error .unknownArgument

def path (r : Reading) (text : String) : Except UsageError Reading :=
  match r.pending with
  | .paths latestFirst => .ok { r with pending := .paths (text :: latestFirst) }
  | _ => r.settle.map fun r => { r with pending := .paths [text] }

/-- An argument that does not look like an option is a value, if one is wanted, or a file. -/
def plain (r : Reading) (text : String) : Except UsageError Reading :=
  match r.pending with
  | .wanting a => .ok { r with pending := .value a text }
  | _ => r.path text

def step (r : Reading) (text : String) : Except UsageError Reading :=
  if r.onlyFiles then r.path text
  else
    match text.toList with
    | ['-', '-'] => .ok { r with onlyFiles := true }
    | '-' :: '-' :: body => r.long body
    | '-' :: c :: rest => r.short c rest
    | _ => r.plain text

end Reading

structure Call where
  given : Given
  files : List String
  deriving DecidableEq, Repr

def Call.read (args : List String) (environment : String → Option String) :
    Except UsageError Call := do
  let r ← args.foldlM Reading.step {}
  let r ← r.settle
  let given ← r.given.takeVariables environment
  if r.files.isEmpty then throw .missingFile
  pure ⟨given, r.files⟩

end SqlBatch.Cli
