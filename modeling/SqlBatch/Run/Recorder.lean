import SqlBatch.Run.Processor

/-! Keeping the record of a source of connections. The recorder stands between a run and a source
and writes down what passes: which statements are handed over and how they come out, and when a
connection is asked for and closed. What the source itself tells of that is left out, so that
nothing is written down twice. -/

namespace SqlBatch.Run

def Event.isOfConnection : Event → Bool
  | .issue .. | .done .. | .connect .. | .close => true
  | .log _ | .seen _ => false

def record (events : List Event) : List Event := events.filter Event.isOfConnection

def unrecorded (events : List Event) : List Event := events.filter (!·.isOfConnection)

/-- A session and the jobs that it was handed and has not answered. -/
structure Recorder (σ : Type) where
  session : σ
  opened : List Job := []

namespace Recorder

variable {σ : Type} (s : Session σ) (r : Recorder σ)

/-- Whose answer it is that is known by `index`. -/
def answered? (index : Nat) : Option Job :=
  (r.opened.find? fun job => job.index = index).or r.opened.head?

def submit (job : Job) : Submission (Recorder σ) :=
  let submission := s.submit r.session job
  let issued := .issue job.sql job.bound :: unrecorded submission.events
  match submission.outcome with
  | some outcome =>
    ⟨issued ++ [.done job.sql outcome.isOk], some outcome,
      { r with session := submission.session }⟩
  | none => ⟨issued, none, ⟨submission.session, r.opened ++ [job]⟩⟩

def next? : Option (Answer (Recorder σ)) := do
  let answer ← s.next? r.session
  let job ← r.answered? answer.index
  return ⟨unrecorded answer.events ++ [.done job.sql answer.outcome.isOk], answer.index,
    answer.outcome, ⟨answer.session, r.opened.erase job⟩⟩

end Recorder

def Session.recorded {σ : Type} (s : Session σ) : Session (Recorder σ) where
  backend r := s.backend r.session
  submit := Recorder.submit s
  next? := Recorder.next? s
  abandon r := ⟨s.abandon r.session, []⟩

def connecting (c : Config) : Event := .connect c.backend c.effectiveHost c.effectivePort

def Provider.recorded {π σ : Type} (source : Provider π σ) : Provider π (Recorder σ) where
  session := source.session.recorded
  connect st c :=
    let attempt := source.connect st c
    ⟨connecting c :: unrecorded attempt.events, attempt.result.map fun session => { session },
      attempt.state⟩
  close st r :=
    let attempt := source.close st r.session
    { attempt with events := .close :: unrecorded attempt.events }

end SqlBatch.Run
