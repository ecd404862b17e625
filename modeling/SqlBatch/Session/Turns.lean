import SqlBatch.Run.Session

/-! Sessions whose jobs take turns. Jobs queue in the order in which they are handed over; the first
one starts when the one before it has its answer, and its time bound is counted from that start.
What runs a job is a line: it runs one job at a time, from its start to its answer. -/

namespace SqlBatch.Session

open Run

/-- What runs the job whose turn it is. -/
structure Line (τ : Type) where
  backend : τ → Backend
  run : τ → Job → List Event × Outcome × τ

structure Turns (τ : Type) where
  line : τ
  waiting : List Job := []

namespace Turns

variable {τ : Type}

def submit (st : Turns τ) (job : Job) : Submission (Turns τ) :=
  ⟨[], none, { st with waiting := st.waiting ++ [job] }⟩

def next? (line : Line τ) (st : Turns τ) : Option (Answer (Turns τ)) :=
  match st.waiting with
  | [] => none
  | job :: rest =>
    let (events, outcome, after) := line.run st.line job
    some ⟨events, job.index, outcome, ⟨after, rest⟩⟩

def abandon (st : Turns τ) : Turns τ := { st with waiting := [] }

def session (line : Line τ) : Session (Turns τ) :=
  ⟨fun st => line.backend st.line, submit, next? line, abandon⟩

end Turns

end SqlBatch.Session
