import SqlBatch.Config
import SqlBatch.Session.Server
import SqlBatch.Session.Turns

/-! MySQL connections. The protocol allows one statement at a time; a statement that exceeds its
bound is given up, and its connection is dropped without a goodbye. -/

namespace SqlBatch.Session.Mysql

open Run

inductive Link where
  | up
  | hungUp
  /-- A statement was given up before it was answered; the connection is not used again. -/
  | abandoned
  deriving DecidableEq, Repr

def protocol : Network.Protocol := ⟨.mysql, false⟩

def send (link : Link) (sql : String) : Contact.Sending Link :=
  match link with
  | .hungUp =>
    ⟨[], some (.error ("Input/output error: Input/output error: " ++
      "Driver error: `Connection to the server is closed.'")), .hungUp⟩
  | .abandoned => ⟨[], none, .abandoned⟩
  | .up =>
    let asked := Event.seen (.query sql)
    match Server.respond sql with
    | .silence => ⟨[asked], none, .up⟩
    | .hangup =>
      ⟨[asked, .seen .hangup],
        some (.error "Input/output error: Input/output error: connection closed"), .hungUp⟩
    | .rejection =>
      ⟨[asked], some (.error ("Server error: `ERROR 42S02 (1146): stand-in rejected `" ++ sql ++
        "`'")), .up⟩
    | .success => ⟨[asked], some (.ok ()), .up⟩

def lose : Link → Link
  | .up | .abandoned => .abandoned
  | .hungUp => .hungUp

def driver : Network.Driver (Contact Link) := Contact.driver send lose []

def run : Link → Job → List Event × Outcome × Link := Contact.run protocol driver

def connect (reach : Reach) (c : Config) : Attempt Unit Link :=
  let port := c.effectivePort.getD 3306
  let connecting := Event.log (.connectingMysql c.effectiveHost port c.database)
  let fail (seen : List Event) (text : String) : Attempt Unit Link :=
    ⟨connecting :: seen, .error (.connection ("Failed to connect to MySQL: " ++ text)), ()⟩
  let login := Event.seen
    (.mysqlLogin (c.username.getD "") c.database (Config.present c.password))
  match reach with
  | .networkUnreachable =>
    fail [] "Input/output error: Input/output error: Network is unreachable (os error 101)"
  | .nobodyListens =>
    fail [] "Input/output error: Input/output error: Connection refused (os error 111)"
  | .server denies =>
    if c.secure then
      fail [.seen .lost]
        "Driver error: `Client asked for SSL but server does not have this capability'"
    else if denies then fail [login] "Server error: `ERROR 28000 (1045): Access denied'"
    else ⟨[connecting, login, .log (.mysqlEstablished 7)], .ok .up, ()⟩

def close (link : Link) : List Event :=
  .log .closingMysql ::
    match link with
    | .up => [.seen .quit]
    | .abandoned => [.seen .lost]
    | .hungUp => []

end SqlBatch.Session.Mysql
