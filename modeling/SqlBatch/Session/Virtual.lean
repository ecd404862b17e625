import SqlBatch.Run.Session
import SqlBatch.Text.Blank
import SqlBatch.Text.Natural

/-! A database on a virtual clock, which understands two things: a statement that begins with the
word `SLEEP` and a number takes that many milliseconds, and one that contains `FAIL` is rejected.
Nothing else takes time. Jobs run side by side; the sleeper with the earliest deadline wakes first,
and of one deadline whoever fell asleep first. What becomes of a job depends on its text and its
bound alone (`outcome`). -/

namespace SqlBatch.Session.Virtual

open Run

def contains (part : List Char) : List Char → Bool
  | [] => part.isEmpty
  | c :: cs => (Text.after? part (c :: cs)).isSome || contains part cs

def sleep? (sql : String) : Option Duration :=
  match Text.after? ['S', 'L', 'E', 'E', 'P', ' '] sql.toList with
  | none => none
  | some rest =>
    (Text.natural? (Nat.pow 2 64 - 1) ((Text.trimStart rest).takeWhile (!Text.isBlank ·))).map
      Duration.ofMilliseconds

def rejects (sql : String) : Bool := contains ['F', 'A', 'I', 'L'] sql.toList

/-- What becomes of a statement under a time bound. -/
def outcome (sql : String) (bound : Duration) : Outcome :=
  if (sleep? sql).any (bound < ·) then .error (.timeout bound)
  else if rejects sql then .error (.connection ("mock rejected `" ++ sql ++ "`"))
  else .ok ()

/-- A job that sleeps until `deadline`, counted in nanoseconds since the session began. -/
structure Sleeper where
  deadline : Nat
  job : Job
  deriving DecidableEq, Repr

structure State where
  backend : Backend
  now : Nat := 0
  sleepers : List Sleeper := []

def done (job : Job) : Event := .done job.sql (outcome job.sql job.bound).isOk

def enqueue (s : Sleeper) : List Sleeper → List Sleeper
  | [] => [s]
  | t :: ts => if s.deadline < t.deadline then s :: t :: ts else t :: enqueue s ts

def submit (st : State) (job : Job) : Submission State :=
  let issued := Event.issue job.sql job.bound
  match sleep? job.sql with
  | none => ⟨[issued, done job], some (outcome job.sql job.bound), st⟩
  | some length =>
    let deadline := st.now + min length.nanoseconds job.bound.nanoseconds
    ⟨[issued], none, { st with sleepers := enqueue ⟨deadline, job⟩ st.sleepers }⟩

def next? (st : State) : Option (Answer State) :=
  match st.sleepers with
  | [] => none
  | s :: rest =>
    some ⟨[done s.job], s.job.index, outcome s.job.sql s.job.bound,
      { st with now := s.deadline, sleepers := rest }⟩

def abandon (st : State) : State := { st with sleepers := [] }

def session : Session State := ⟨State.backend, submit, next?, abandon⟩

end SqlBatch.Session.Virtual
