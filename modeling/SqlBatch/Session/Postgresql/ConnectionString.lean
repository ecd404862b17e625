import SqlBatch.Json.Parser
import SqlBatch.Session.Postgresql
import SqlBatch.Session.Postgresql.Address
import SqlBatch.Text.Natural
import SqlBatch.Text.Utf8

/-! Connection strings: pairs of a key and a value with blanks between them, or a URL. A value may
stand in single quotes, where a backslash makes the next character literal; a quote inside is
written with a backslash and never twice. The parts of a URL are percent-decoded. Hosts, addresses
and ports may be lists with commas in them, and add up over the string; of any other key the last
value counts. -/

namespace SqlBatch.Session.Postgresql.ConnectionString

def commaParts (value : String) : List String := (value.toList.splitOn ',').map String.ofList

def port? (text : String) : Option UInt16 :=
  if text.isEmpty then some 5432
  else (Text.natural? 65535 text.toList).map Nat.toUInt16

/-- The values of the keys that settle nothing about where and as whom to connect. -/
def isSetting (key value : String) : Bool :=
  match key with
  | "options" | "application_name" => true
  | "sslmode" | "channel_binding" => ["disable", "prefer", "require"].contains value
  | "sslnegotiation" => ["postgres", "direct"].contains value
  | "target_session_attrs" => ["any", "read-write", "read-only"].contains value
  | "load_balance_hosts" => ["disable", "random"].contains value
  | "connect_timeout" | "tcp_user_timeout" | "keepalives_idle" | "keepalives_interval" =>
    (Text.integer? (Nat.pow 2 63 - 1) value.toList).isSome
  | "keepalives" => (Text.natural? (Nat.pow 2 64 - 1) value.toList).isSome
  | "keepalives_retries" => (Text.natural? (Nat.pow 2 32 - 1) value.toList).isSome
  | _ => false

/-- One key and its value applied to a target; nothing for an unknown key or a bad value. -/
def set? (t : Target) (key value : String) : Option Target :=
  match key with
  | "host" => some { t with hosts := t.hosts ++ commaParts value }
  | "hostaddr" =>
    let addresses := commaParts value
    if addresses.all Address.isAddress then some { t with addresses := t.addresses ++ addresses }
    else none
  | "port" => ((commaParts value).mapM port?).map fun ports => { t with ports := t.ports ++ ports }
  | "user" => some { t with user := some value }
  | "password" => some { t with password := some value }
  | "dbname" => some { t with database := some value }
  | _ => if isSetting key value then some t else none

def quotedValue (acc : List Char) : List Char → Option (List Char × List Char)
  | [] => none
  | '\'' :: cs => some (acc.reverse, cs)
  | '\\' :: c :: cs => quotedValue (c :: acc) cs
  | ['\\'] => none
  | c :: cs => quotedValue (c :: acc) cs

def simpleValue (acc : List Char) : List Char → List Char × List Char
  | [] => (acc.reverse, [])
  | ['\\'] => (acc.reverse, [])
  | '\\' :: c :: cs => simpleValue (c :: acc) cs
  | c :: cs => if Text.isBlank c then (acc.reverse, c :: cs) else simpleValue (c :: acc) cs

def value : List Char → Option (List Char × List Char)
  | '\'' :: cs => quotedValue [] cs
  | cs =>
    match simpleValue [] cs with
    | ([], _) => none
    | r => some r

def key (cs : List Char) : List Char × Option (List Char) :=
  let isKey (c : Char) : Bool := !Text.isBlank c && c != '='
  (cs.takeWhile isKey,
    match Text.trimStart (cs.dropWhile isKey) with
    | '=' :: rest => some (Text.trimStart rest)
    | _ => none)

def pairs (t : Target) : Nat → List Char → Option Target
  | 0, _ => some t
  | n + 1, cs =>
    match key (Text.trimStart cs) with
    | ([], _) => some t
    | (_, none) => none
    | (k, some behind) =>
      match value behind with
      | none => none
      | some (v, rest) =>
        match set? t (String.ofList k) (String.ofList v) with
        | none => none
        | some t => pairs t n rest

def percentBytes : List Char → List UInt8
  | [] => []
  | '%' :: a :: b :: cs =>
    match Json.hexValue? a, Json.hexValue? b with
    | some x, some y => (x * 16 + y).toUInt8 :: percentBytes cs
    | _, _ => 0x25 :: percentBytes (a :: b :: cs)
  | c :: cs => Text.Utf8.encode (String.singleton c) ++ percentBytes cs

def percentDecode? (cs : List Char) : Option String := Text.Utf8.decode? (percentBytes cs)

def splitFirst? (p : Char → Bool) (cs : List Char) : Option (List Char × List Char) :=
  match cs.dropWhile (!p ·) with
  | [] => none
  | _ :: rest => some (cs.takeWhile (!p ·), rest)

def credentials? (t : Target) (cs : List Char) : Option Target :=
  match splitFirst? (· = ':') cs with
  | none => (percentDecode? cs).map fun user => { t with user := some user }
  | some (user, password) =>
    (percentDecode? user).map fun user =>
      { t with user := some user, password := some (Text.Utf8.decodeLossy (percentBytes password)) }

/-- A host of a URL; what begins with a slash is a path, of any bytes. -/
def host? (t : Target) (cs : List Char) : Option Target :=
  let bytes := percentBytes cs
  let host := if bytes.head? = some 0x2F then some (Text.Utf8.decodeLossy bytes)
    else Text.Utf8.decode? bytes
  host.map fun host => { t with hosts := t.hosts ++ [host] }

/-- A host and the text of its port; a host may stand in brackets. -/
def splitPort? : List Char → Option (List Char × List Char)
  | '[' :: cs => do
    let (host, behind) ← splitFirst? (· = ']') cs
    match behind with
    | [] => some (host, ['5', '4', '3', '2'])
    | ':' :: port => some (host, port)
    | _ => none
  | cs => some ((splitFirst? (· = ':') cs).getD (cs, ['5', '4', '3', '2']))

def hostAndPort? (t : Target) (cs : List Char) : Option Target := do
  let (host, port) ← splitPort? cs
  let t ← host? t host
  set? t "port" (← percentDecode? port)

def places? (t : Target) (cs : List Char) : Option Target :=
  if cs.isEmpty then some t else (cs.splitOn ',').foldlM hostAndPort? t

def parameters? (t : Target) : Nat → List Char → Option Target
  | 0, _ | _, [] => some t
  | n + 1, cs => do
    let (key, behind) ← splitFirst? (· = '=') cs
    let key ← percentDecode? key
    let (value, rest) := (splitFirst? (· = '&') behind).getD (behind, [])
    let t ← if key = "host" then host? t value else set? t key (← percentDecode? value)
    parameters? t n rest

def url? (cs : List Char) : Option Target :=
  let (login, place) : Option (List Char) × List Char :=
    match splitFirst? (· = '@') cs with
    | some (login, place) => (some login, place)
    | none => (none, cs)
  let isAuthority (c : Char) : Bool := c != '/' && c != '?'
  let tail := place.dropWhile isAuthority
  let (path, query) := (splitFirst? (· = '?') tail).getD (tail, [])
  do
    let t ← login.elim (some ({} : Target)) (credentials? {})
    let t ← places? t (place.takeWhile isAuthority)
    let database ← percentDecode? path.tail
    let t := if database.isEmpty then t else { t with database := some database }
    parameters? t query.length query

def read? (text : String) : Option Target :=
  let cs := text.toList
  match Text.after? "postgresql://".toList cs <|> Text.after? "postgres://".toList cs with
  | some rest => url? rest
  | none => pairs {} cs.length cs

def connect (reach : Reach) (text : String) : Run.Attempt Unit Link :=
  match read? text with
  | some t => Postgresql.connect reach t
  | none => failed [] "invalid connection string"

end SqlBatch.Session.Postgresql.ConnectionString
