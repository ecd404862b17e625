import SqlBatch.Proofs.Run.Serial

/-! Sessions behind a lock. A job that is handed over comes for the lock: it starts where nobody has
the lock, and waits in a queue otherwise. It keeps the lock until it has its outcome, which is a
function of the jobs that started before it. The lock goes to the first in the queue, which starts
when the session is asked for an answer again, and not before. -/

namespace SqlBatch.Run

/-- The jobs that came for a lock. -/
structure Queue where
  done : List Job
  running : Option Job := none
  waiting : List Job := []
  deriving DecidableEq, Repr

namespace Queue

def unfinished (q : Queue) : List Job := q.running.toList ++ q.waiting

section
variable (answer : List Job → Job → Outcome) (job : Job)

/-- A job is handed over, and may come out where it is handed over. -/
inductive Submits : Queue → Option Outcome → Queue → Prop
  | finishes (done : List Job) : Submits ⟨done, none, []⟩ (some (answer done job))
      ⟨done ++ [job], none, []⟩
  | starts (done : List Job) : Submits ⟨done, none, []⟩ none ⟨done, some job, []⟩
  | waits (q : Queue) : Submits q none { q with waiting := q.waiting ++ [job] }

/-- A job comes out. It was running, or it has the lock and starts now. -/
inductive Finishes : Queue → Queue → Prop
  | running (done waiting : List Job) :
      Finishes ⟨done, some job, waiting⟩ ⟨done ++ [job], none, waiting⟩
  | next (done waiting : List Job) :
      Finishes ⟨done, none, job :: waiting⟩ ⟨done ++ [job], none, waiting⟩

end

section
variable {answer : List Job → Job → Outcome} {job : Job} {q q' : Queue}

theorem Submits.of_none (h : Submits answer job q none q') :
    q'.done = q.done ∧ q'.unfinished = q.unfinished ++ [job] := by
  cases h with
  | starts => exact ⟨rfl, rfl⟩
  | waits => exact ⟨rfl, (List.append_assoc ..).symm⟩

theorem Submits.of_some {o : Outcome} (h : Submits answer job q (some o) q') :
    q = ⟨q.done, none, []⟩ ∧ o = answer q.done job ∧ q' = ⟨q.done ++ [job], none, []⟩ := by
  cases h with
  | finishes => exact ⟨rfl, rfl, rfl⟩

theorem Finishes.unfinished (h : Finishes job q q') : q.unfinished = job :: q'.waiting := by
  cases h with
  | running => rfl
  | next => rfl

theorem Finishes.left (h : Finishes job q q') : q' = ⟨q.done ++ [job], none, q'.waiting⟩ := by
  cases h with
  | running => rfl
  | next => rfl

end

theorem eq_of_unfinished {q : Queue} (h : q.unfinished = []) : q = ⟨q.done, none, []⟩ := by
  obtain ⟨done, running, waiting⟩ := q
  obtain ⟨hrunning, rfl⟩ := List.append_eq_nil_iff.1 h
  obtain rfl : running = none := Option.toList_eq_nil_iff.1 hrunning
  rfl

end Queue

/-- In a state that `stands` relates to a queue, the jobs of the queue share the session by its
lock; a job comes out as `answer` has it, behind the jobs that started before it. -/
structure Session.TakesTurns {σ : Type} (s : Session σ) (answer : List Job → Job → Outcome)
    (stands : σ → Queue → Prop) : Prop where
  submit : ∀ {st : σ} {q : Queue} (job : Job), stands st q →
    ∃ q', q.Submits answer job (s.submit st job).outcome q' ∧ stands (s.submit st job).session q'
  next?_none : ∀ {st : σ} {q : Queue}, stands st q → s.next? st = none → q.unfinished = []
  next?_some : ∀ {st : σ} {q : Queue} {a : Answer σ}, stands st q → s.next? st = some a →
    ∃ job q', q.Finishes job q' ∧ a.index = job.index ∧ a.outcome = answer q.done job ∧
      stands a.session q'

namespace Session.TakesTurns
variable {σ : Type} {s : Session σ} {answer : List Job → Job → Outcome} {stands : σ → Queue → Prop}
  {st : σ} {before : List Job}

theorem ask (hs : s.TakesTurns answer stands) (hfree : stands st ⟨before, none, []⟩) (job : Job) :
    (s.ask st job).outcome = answer before job ∧
    stands (s.ask st job).session ⟨before ++ [job], none, []⟩ := by
  obtain ⟨q, hsubmits, hq⟩ := hs.submit job hfree
  cases houtcome : (s.submit st job).outcome with
  | some o =>
    rw [houtcome] at hsubmits
    obtain ⟨-, rfl, rfl⟩ := hsubmits.of_some
    rw [ask_of_outcome houtcome]
    exact ⟨rfl, hq⟩
  | none =>
    rw [houtcome] at hsubmits
    obtain ⟨hdone, hunfinished⟩ := hsubmits.of_none
    cases hnext : s.next? (s.submit st job).session with
    | none =>
      rw [hs.next?_none hq hnext] at hunfinished
      exact absurd hunfinished.symm (List.concat_ne_nil _ _)
    | some a =>
      -- the job is the only one that has no outcome yet
      obtain ⟨job', q', hfinishes, -, hanswer, hq'⟩ := hs.next?_some hq hnext
      have honly := hfinishes.unfinished.symm.trans hunfinished
      obtain ⟨rfl, hwaiting⟩ := List.cons.inj honly
      rw [ask_of_next? houtcome hnext]
      refine ⟨hanswer.trans (by rw [hdone]), ?_⟩
      rw [hfinishes.left, hdone, hwaiting] at hq'
      exact hq'

theorem after (hs : s.TakesTurns answer stands) (hfree : stands st ⟨before, none, []⟩)
    (jobs : List Job) : stands (s.after st jobs) ⟨before ++ jobs, none, []⟩ := by
  induction jobs generalizing st before with
  | nil => rwa [List.append_nil]
  | cons job jobs ih =>
    have hnext := ih (hs.ask hfree job).2
    rwa [List.append_assoc] at hnext

theorem answerFrom_eq (hs : s.TakesTurns answer stands) (hfree : stands st ⟨before, none, []⟩)
    (jobs : List Job) (job : Job) : s.answerFrom st jobs job = answer (before ++ jobs) job :=
  (hs.ask (hs.after hfree jobs) job).1

end Session.TakesTurns
end SqlBatch.Run
