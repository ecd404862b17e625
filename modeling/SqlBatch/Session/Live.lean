import SqlBatch.Run.Processor
import SqlBatch.Session.Mysql
import SqlBatch.Session.Postgresql
import SqlBatch.Session.Sqlite

/-! Connections to the backends themselves. Each is a session whose statements take turns. -/

namespace SqlBatch.Session.Live

open Run

inductive Connection where
  | mysql (link : Mysql.Link)
  | postgresql (link : Postgresql.Link)
  | sqlite (left : List Sqlite.Dispatch)

namespace Connection

def backend : Connection → Backend
  | mysql _ => .mysql
  | postgresql _ => .postgresql
  | sqlite _ => .sqlite

def run (c : Connection) (job : Job) : List Event × Outcome × Connection :=
  match c with
  | mysql link =>
    let (events, outcome, link) := Mysql.run link job
    (events, outcome, .mysql link)
  | postgresql link =>
    let (events, outcome, link) := Postgresql.run link job
    (events, outcome, .postgresql link)
  | sqlite left =>
    let (events, outcome, ds) := Sqlite.run job
    (events, outcome, .sqlite (left.filter Sqlite.Dispatch.isAtWork ++ ds))

def close : Connection → List Event
  | mysql link => Mysql.close link
  | postgresql link => Postgresql.close link
  | sqlite left => Sqlite.close left

end Connection

def line : Line Connection := ⟨Connection.backend, Connection.run⟩

def session : Session (Turns Connection) := Turns.session line

def opened {α : Type} (a : Attempt Unit α) (connection : α → Connection) :
    Attempt Unit (Turns Connection) :=
  ⟨a.events, a.result.map fun x => { line := connection x }, a.state⟩

def connectSqlite (c : Config) : Attempt Unit (Turns Connection) :=
  match c.database with
  | none => ⟨[], .error (.configuration .noDatabaseFile), ()⟩
  | some path =>
    ⟨[.log (.openingSqlite path)],
      match Sqlite.openProblem? path with
      | none => .ok { line := .sqlite [] }
      | some problem => .error (.connection ("Failed to open SQLite database: " ++ problem)),
      ()⟩

def connect (reach : Reach) (c : Config) : Attempt Unit (Turns Connection) :=
  match c.backend with
  | .mysql => opened (Mysql.connect reach c) .mysql
  | .postgresql => opened (Postgresql.connectWith reach c) .postgresql
  | .sqlite => connectSqlite c

def close (c : Turns Connection) : Attempt Unit Unit := ⟨c.line.close, .ok (), ()⟩

def provider (reach : Reach) : Provider Unit (Turns Connection) :=
  ⟨session, fun _ => connect reach, fun _ => close⟩

end SqlBatch.Session.Live
