import SqlBatch.Run.Event

/-! Open database sessions. A session takes jobs and answers each of them once. A job may be
answered where it is handed over; otherwise the session is asked for its next answer, and time
passes until there is one. How jobs that are handed over together share the session, and in which
order they are answered, is up to the session. -/

namespace SqlBatch.Run

/-- One statement to run: what its answer is known by, its text and its time bound. -/
structure Job where
  index : Nat
  sql : String
  bound : Duration
  deriving DecidableEq, Repr

abbrev Outcome := Except Failure Unit

structure Answer (σ : Type) where
  events : List Event
  index : Nat
  outcome : Outcome
  session : σ

structure Submission (σ : Type) where
  events : List Event
  outcome : Option Outcome
  session : σ

structure Session (σ : Type) where
  backend : σ → Backend
  submit : σ → Job → Submission σ
  /-- The next answer to a job handed over before; nothing if none is outstanding. -/
  next? : σ → Option (Answer σ)
  /-- Drops the jobs that are outstanding; none of them is answered. -/
  abandon : σ → σ

/-- Hands over a job and waits for its answer; one that is never answered exceeds its bound. -/
def Session.ask {σ : Type} (s : Session σ) (st : σ) (job : Job) : Answer σ :=
  let submission := s.submit st job
  match submission.outcome with
  | some outcome => ⟨submission.events, job.index, outcome, submission.session⟩
  | none =>
    match s.next? submission.session with
    | some answer => { answer with events := submission.events ++ answer.events }
    | none =>
      ⟨submission.events, job.index, .error (.timeout job.bound), submission.session⟩

structure Attempt (π α : Type) where
  events : List Event
  result : Except Failure α
  state : π

end SqlBatch.Run
