import SqlBatch.Session.Clock

/-! Statements on a SQLite connection, move by move. Two parties work on a statement: the one that
waits for its answer, and a task on a thread of its own that runs it. They share a flag. The waiting
party takes its turn on the session, starts the task, and waits for it or for the time bound,
whichever comes first. When the bound has passed it raises the flag, interrupts the connection and
then waits for the task alone. The task obtains the connection and looks at the flag: it runs the
statement if the flag is down, and skips it if not. A statement that is interrupted ends like any
other, with success or with an error, and only one that succeeds has an effect.

The turn and the connection belong to one statement at a time. Nothing else orders the moves of
different statements and parties. -/

namespace SqlBatch.Session.Sqlite

open Run

inductive Executed where
  | done
  | rows
  | failed (detail : String)
  deriving DecidableEq

def Executed.result : Executed → Except String Unit
  | .done | .rows => .ok ()
  | .failed detail => .error detail

inductive Task where
  | absent
  | queued
  /-- It has the connection and has not looked at the flag. -/
  | holding
  | running
  /-- It has ended, without a result if it skipped the statement. -/
  | ended (result : Option (Except String Unit))

inductive Waiter where
  | queued
  | waiting
  | expired
  | flagged
  | awaiting
  | answered (outcome : Outcome)
  | dropped

structure Dispatch where
  job : Job
  waiter : Waiter := .queued
  task : Task := .absent
  flagged : Bool := false

inductive Move where
  | takeTurn
  | obtain
  | begin
  | skip
  | finish (executed : Executed)
  /-- The bound is found to have passed; the task may have ended in that moment. -/
  | expire
  | flag
  | interrupt
  | join
  | abandon
  deriving DecidableEq

namespace Dispatch

def hasTurn (d : Dispatch) : Bool :=
  match d.waiter with
  | .waiting | .expired | .flagged | .awaiting => true
  | .queued | .answered _ | .dropped => false

def hasConnection (d : Dispatch) : Bool :=
  match d.task with
  | .holding | .running => true
  | .absent | .queued | .ended _ => false

def answerInTime (bound : Duration) : Option (Except String Unit) → Outcome
  | some (.ok ()) => .ok ()
  | some (.error e) => .error (.sqlite e)
  | none => .error (.timeout bound)

def answerLate (bound : Duration) : Option (Except String Unit) → Outcome
  | some (.ok ()) => .ok ()
  | some (.error _) | none => .error (.timeout bound)

def move? (d : Dispatch) : Move → Option Dispatch
  | .takeTurn =>
    match d.waiter, d.task with
    | .queued, .absent => some { d with waiter := .waiting, task := .queued }
    | _, _ => none
  | .obtain =>
    match d.task with
    | .queued => some { d with task := .holding }
    | _ => none
  | .begin =>
    match d.task, d.flagged with
    | .holding, false => some { d with task := .running }
    | _, _ => none
  | .skip =>
    match d.task, d.flagged with
    | .holding, true => some { d with task := .ended none }
    | _, _ => none
  | .finish executed =>
    match d.task with
    | .running => some { d with task := .ended (some executed.result) }
    | _ => none
  | .expire =>
    match d.waiter with
    | .waiting => some { d with waiter := .expired }
    | _ => none
  | .flag =>
    match d.waiter with
    | .expired => some { d with waiter := .flagged, flagged := true }
    | _ => none
  | .interrupt =>
    match d.waiter with
    | .flagged => some { d with waiter := .awaiting }
    | _ => none
  | .join =>
    match d.waiter, d.task with
    | .waiting, .ended r => some { d with waiter := .answered (answerInTime d.job.bound r) }
    | .awaiting, .ended r => some { d with waiter := .answered (answerLate d.job.bound r) }
    | _, _ => none
  | .abandon =>
    -- dropping raises the flag unless that has been done, or no task has been started
    match d.waiter with
    | .waiting => some { d with waiter := .dropped, flagged := true }
    | .queued | .awaiting => some { d with waiter := .dropped }
    | _ => none

/-- A statement that is done behind its bound is told of when its task is joined. -/
def note? (d : Dispatch) : Move → Option Note
  | .join =>
    match d.waiter, d.task with
    | .awaiting, .ended (some (.ok ())) => some (.sqliteOverran d.job.bound)
    | _, _ => none
  | _ => none

def isAtWork (d : Dispatch) : Bool :=
  match d.task with
  | .queued | .holding | .running => true
  | .absent | .ended _ => false

end Dispatch

/-- Whether the other statements leave room for a move: the turn and the connection are taken only
when nobody has them. -/
def Move.isFree (ds : List Dispatch) : Move → Bool
  | .takeTurn => ds.all fun d => !d.hasTurn
  | .obtain => ds.all fun d => !d.hasConnection
  | _ => true

def move? (ds : List Dispatch) (i : Nat) (m : Move) : Option (List Dispatch) :=
  match ds[i]? with
  | some d => if m.isFree ds then (d.move? m).map (ds.set i ·) else none
  | none => none

def moves? (ds : List Dispatch) (trace : List (Nat × Move)) : Option (List Dispatch) :=
  trace.foldlM (fun ds m => move? ds m.1 m.2) ds

def notes (ds : List Dispatch) : List (Nat × Move) → List Note
  | [] => []
  | (i, m) :: trace =>
    (ds[i]?.bind (·.note? m)).toList ++
      match move? ds i m with
      | some ds' => notes ds' trace
      | none => []

def handedOver (jobs : List Job) : List Dispatch := jobs.map fun job => { job := job }

def answer? (ds : List Dispatch) (i : Nat) : Option Outcome :=
  match ds[i]? with
  | some ⟨_, .answered outcome, _, _⟩ => some outcome
  | _ => none

/-! On the clock. -/

def Dispatch.came? (d : Dispatch) : Option Outcome :=
  match d.task with
  | .ended (some result) => some (result.mapError .sqlite)
  | _ => none

def Dispatch.ticket (d : Dispatch) : Ticket :=
  match d.waiter with
  | .queued => .queued
  | .waiting =>
    match d.came? with
    | some outcome => .ready outcome
    | none => .waiting
  | .expired | .flagged | .awaiting => .late d.came?
  | .answered outcome => .answered outcome
  | .dropped => .dropped

def Move.signal : Move → Signal
  | .takeTurn => .starts
  | .obtain | .begin | .skip | .flag | .interrupt | .join => .passes
  | .finish executed => .comes (executed.result.mapError .sqlite)
  | .expire => .expires
  | .abandon => .abandons

/-- A statement comes to what the database makes of it, behind the statements before it; one that
has been interrupted may come to anything. -/
def Move.isDue (answer : List String → Executed) (ds : List Dispatch) (i : Nat) : Move → Bool
  | .finish executed =>
    executed = answer ((ds.take (i + 1)).map (·.job.sql)) ||
      ds[i]?.any fun d =>
        match d.waiter with
        | .awaiting => true
        | _ => false
  | _ => true

def dispatcher (answer : List String → Executed) : Dispatcher (List Dispatch) Move where
  handedOver := handedOver
  move? ds i m := if m.isDue answer ds i then move? ds i m else none
  signal := Move.signal
  tickets ds := ds.map Dispatch.ticket

end SqlBatch.Session.Sqlite
