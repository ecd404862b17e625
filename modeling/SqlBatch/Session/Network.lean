import SqlBatch.Session.Clock

/-! Statements on a network connection, move by move. The client library is a driver: it sends a
statement by a call, which comes back with a result unless it is dropped before. The party that
waits for an answer takes its turn on the session, makes the call, and waits for it or for the time
bound, whichever comes first. When the bound has passed it drops the call and, where the server has to be
asked to stop, waits for that request. Then it gives the turn back.

The turn belongs to one statement at a time. Nothing else orders the moves of different
statements. -/

namespace SqlBatch.Session.Network

open Run

structure Driver (κ : Type) where
  call : κ → String → κ
  /-- What becomes of the connection when the call comes back with a result, if it can. -/
  resolve : κ → Except String Unit → Option κ
  drop : κ → κ
  /-- A request to stop what was sent last, which may have failed. -/
  cancel : κ → Option String → κ

structure Protocol where
  failure : String → Failure
  cancels : Bool

def Protocol.answer (p : Protocol) (result : Except String Unit) : Outcome :=
  result.mapError p.failure

inductive Stage where
  | queued
  | calling
  | returned (result : Except String Unit)
  | expired
  | answered (outcome : Outcome)
  | dropped

structure Dispatch where
  job : Job
  stage : Stage := .queued

structure State (κ : Type) where
  connection : κ
  dispatches : List Dispatch

inductive Move where
  | takeTurn
  | resolve (result : Except String Unit)
  | join
  | expire
  | giveUp (problem : Option String)
  | abandon

def Move.note? : Move → Option Note
  | .giveUp (some problem) => some (.cancelFailed problem)
  | _ => none

namespace Dispatch

variable {κ : Type} (p : Protocol) (driver : Driver κ)

def hasTurn (d : Dispatch) : Bool :=
  match d.stage with
  | .calling | .returned _ | .expired => true
  | .queued | .answered _ | .dropped => false

def move? (k : κ) (d : Dispatch) : Move → Option (κ × Dispatch)
  | .takeTurn =>
    match d.stage with
    | .queued => some (driver.call k d.job.sql, { d with stage := .calling })
    | _ => none
  | .resolve result =>
    match d.stage with
    | .calling => (driver.resolve k result).map fun k => (k, { d with stage := .returned result })
    | _ => none
  | .join =>
    match d.stage with
    | .returned result => some (k, { d with stage := .answered (p.answer result) })
    | _ => none
  | .expire =>
    match d.stage with
    | .calling => some (driver.drop k, { d with stage := .expired })
    | .returned _ => some (k, { d with stage := .expired })
    | _ => none
  | .giveUp problem =>
    match d.stage with
    | .expired =>
      if p.cancels then
        some (driver.cancel k problem,
          { d with stage := .answered (.error (.timeout d.job.bound)) })
      else if problem.isNone then
        some (k, { d with stage := .answered (.error (.timeout d.job.bound)) })
      else none
    | _ => none
  | .abandon =>
    match d.stage with
    | .calling => some (driver.drop k, { d with stage := .dropped })
    | .queued | .returned _ | .expired => some (k, { d with stage := .dropped })
    | .answered _ | .dropped => none

end Dispatch

section
variable {κ : Type} (p : Protocol) (driver : Driver κ)

def Move.isFree (ds : List Dispatch) : Move → Bool
  | .takeTurn => ds.all fun d => !d.hasTurn
  | _ => true

def move? (st : State κ) (i : Nat) (m : Move) : Option (State κ) :=
  match st.dispatches[i]? with
  | some d =>
    if m.isFree st.dispatches then
      (d.move? p driver st.connection m).map fun (k, d') => ⟨k, st.dispatches.set i d'⟩
    else none
  | none => none

def moves? (st : State κ) (trace : List (Nat × Move)) : Option (State κ) :=
  trace.foldlM (fun st m => move? p driver st m.1 m.2) st

def handedOver (k : κ) (jobs : List Job) : State κ := ⟨k, jobs.map fun job => { job := job }⟩

/-- How a statement goes when it is alone and its call comes back with `result?`, if at all. -/
def courseOf : Option (Except String Unit) → List Move
  | some result => [.takeTurn, .resolve result, .join]
  | none => [.takeTurn, .expire, .giveUp none]

/-- What is told of such a statement, what it is answered, and the connection behind it. -/
def run (k : κ) (job : Job) (result? : Option (Except String Unit)) : List Note × Outcome × κ :=
  let moves := courseOf result?
  match moves? p driver (handedOver k [job]) (moves.map fun m => (0, m)) with
  | some ⟨k', [⟨_, .answered outcome⟩]⟩ => (moves.filterMap Move.note?, outcome, k')
  | _ => ([], .error (.timeout job.bound), k)

end

/-! On the clock. -/

def Stage.ticket (p : Protocol) : Stage → Ticket
  | .queued => .queued
  | .calling => .waiting
  | .returned result => .ready (p.answer result)
  | .expired => .late none
  | .answered outcome => .answered outcome
  | .dropped => .dropped

def Move.signal (p : Protocol) : Move → Signal
  | .takeTurn => .starts
  | .resolve result => .comes (p.answer result)
  | .join | .giveUp _ => .passes
  | .expire => .expires
  | .abandon => .abandons

def dispatcher {κ : Type} (p : Protocol) (driver : Driver κ) (k : κ) :
    Dispatcher (State κ) Move where
  handedOver := handedOver k
  move? := move? p driver
  signal := Move.signal p
  tickets st := st.dispatches.map fun d => d.stage.ticket p

end SqlBatch.Session.Network
