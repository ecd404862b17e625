import SqlBatch.Config
import SqlBatch.Session.Server
import SqlBatch.Session.Turns

/-! PostgreSQL connections. A statement that exceeds its bound is cancelled by a request of its own,
and the connection goes on. Secure connections are refused before anything is sent. -/

namespace SqlBatch.Session.Postgresql

open Run

structure Target where
  hosts : List String := []
  addresses : List String := []
  ports : List UInt16 := []
  user : Option String := none
  password : Option String := none
  database : Option String := none
  deriving DecidableEq, Repr

def Target.ofConfig (c : Config) : Target :=
  ⟨[c.effectiveHost], [], [c.effectivePort.getD 5432], c.username, c.password, c.database⟩

/-- Whether every host can have its address and its port; one port will do for all hosts. -/
def Target.isComplete (t : Target) : Bool :=
  let places := max t.hosts.length t.addresses.length
  places ≠ 0 &&
    (t.hosts.isEmpty || t.addresses.isEmpty || t.hosts.length = t.addresses.length) &&
    (t.ports.length ≤ 1 || t.ports.length = places)

inductive Link where
  | up
  | hungUp
  deriving DecidableEq, Repr

def protocol : Network.Protocol := ⟨.postgresql, true⟩

def send (link : Link) (sql : String) : Contact.Sending Link :=
  if sql.toList.contains '\x00' then ⟨[], some (.error "error encoding message to server"), link⟩
  else
    match link with
    | .hungUp => ⟨[], some (.error "connection closed"), .hungUp⟩
    | .up =>
      let asked := Event.seen (.query sql)
      match Server.respond sql with
      | .silence => ⟨[asked], none, .up⟩
      | .hangup =>
        ⟨[asked, .seen .hangup, .log (.postgresqlLost "connection closed")],
          some (.error "connection closed"), .hungUp⟩
      | .rejection => ⟨[asked], some (.error "db error"), .up⟩
      | .success => ⟨[asked], some (.ok ()), .up⟩

def driver : Network.Driver (Contact Link) := Contact.driver send id [.seen (.cancel 7 9)]

def run : Link → Job → List Event × Outcome × Link := Contact.run protocol driver

def failed (seen : List Event) (text : String) : Attempt Unit Link :=
  ⟨seen, .error (.connection ("Failed to connect to PostgreSQL: " ++ text)), ()⟩

def connect (reach : Reach) (t : Target) : Attempt Unit Link :=
  if !t.isComplete then failed [] "invalid configuration"
  else
    match reach, t.password with
    | .networkUnreachable, _ | .nobodyListens, _ => failed [] "error connecting to server"
    | .server _, none => failed [.seen .lost] "invalid configuration"
    | .server denies, some password =>
      let login := Event.seen (.postgresqlLogin (t.user.getD "") t.database password)
      if denies then failed [login] "db error" else ⟨[login], .ok .up, ()⟩

def connectWith (reach : Reach) (c : Config) : Attempt Unit Link :=
  if c.secure then ⟨[], .error (.configuration .secureUnsupported), ()⟩
  else
    let attempt := connect reach (.ofConfig c)
    { attempt with
      events := .log (.connectingPostgresql c.effectiveHost c.database) :: attempt.events }

def close (link : Link) : List Event :=
  .log .closingPostgresql ::
    match link with
    | .up => [.seen .quit]
    | .hungUp => []

end SqlBatch.Session.Postgresql
