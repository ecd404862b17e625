import SqlBatch.Proofs.Run.Queue
import SqlBatch.Session.Turns

/-! The sessions whose jobs take turns are behind a lock. What their line makes of a job depends on
the jobs that it has run before; and a job that finds the lock free may start where it is handed
over, or when it is looked after next. -/

namespace SqlBatch.Session

open Run

def Line.after {τ : Type} (line : Line τ) (start : τ) (jobs : List Job) : τ :=
  jobs.foldl (fun at_ job => (line.run at_ job).2.2) start

def Line.answer {τ : Type} (line : Line τ) (start : τ) (before : List Job) (job : Job) : Outcome :=
  (line.run (line.after start before) job).2.1

theorem Line.after_concat {τ : Type} (line : Line τ) (start : τ) (jobs : List Job) (job : Job) :
    line.after start (jobs ++ [job]) = (line.run (line.after start jobs) job).2.2 :=
  List.foldl_concat ..

namespace Turns
variable {τ : Type}

/-- The line has run the jobs of the queue that are done, and none of them is running. -/
structure Stands (line : Line τ) (start : τ) (st : Turns τ) (q : Queue) : Prop where
  line : st.line = line.after start q.done
  running : q.running = none
  waiting : st.waiting = q.waiting

theorem takesTurns (line : Line τ) (start : τ) :
    (session line).TakesTurns (line.answer start) (Stands line start) where
  submit := by
    rintro st q job ⟨hline, hrunning, hwaiting⟩
    exact ⟨_, .waits q, hline, hrunning, congrArg (· ++ [job]) hwaiting⟩
  next?_none := by
    rintro st q ⟨-, hrunning, hwaiting⟩ hnext
    cases hst : st.waiting with
    | nil => rw [Queue.unfinished, hrunning, ← hwaiting, hst]; rfl
    | cons job rest => simp [session, next?, hst] at hnext
  next?_some := by
    rintro st ⟨done, running, waiting⟩ a ⟨hline, rfl, hwaiting⟩ hnext
    cases hst : st.waiting with
    | nil => simp [session, next?, hst] at hnext
    | cons job rest =>
      obtain rfl : job :: rest = waiting := hst.symm.trans hwaiting
      simp only [session, next?, hst, Option.some.injEq] at hnext
      subst hnext
      refine ⟨job, _, .next done rest, rfl, congrArg (fun t => (line.run t job).2.1) hline, ?_⟩
      refine ⟨?_, rfl, rfl⟩
      rw [line.after_concat]
      exact congrArg (fun t => (line.run t job).2.2) hline

end Turns

/-- A session that is a lock. A job that finds it free starts at once, and some jobs come to their
end at once too. -/
def lock (answer : List Job → Job → Outcome) (endsAtOnce : Job → Bool) : Session Queue where
  backend _ := .mysql
  submit q job :=
    match q.unfinished with
    | [] =>
      if endsAtOnce job then ⟨[], some (answer q.done job), ⟨q.done ++ [job], none, []⟩⟩
      else ⟨[], none, ⟨q.done, some job, []⟩⟩
    | _ :: _ => ⟨[], none, { q with waiting := q.waiting ++ [job] }⟩
  next? q :=
    match q.unfinished with
    | [] => none
    | job :: rest => some ⟨[], job.index, answer q.done job, ⟨q.done ++ [job], none, rest⟩⟩
  abandon q := ⟨q.done, none, []⟩

theorem takesTurns_lock (answer : List Job → Job → Outcome) (endsAtOnce : Job → Bool) :
    (lock answer endsAtOnce).TakesTurns answer Eq where
  submit := by
    rintro q _ job rfl
    cases hq : q.unfinished with
    | nil =>
      rw [Queue.eq_of_unfinished hq]
      cases hends : endsAtOnce job with
      | true =>
        refine ⟨_, ?_, rfl⟩
        simp only [lock, Queue.unfinished, Option.toList_none, List.append_nil, hends, if_true]
        exact .finishes q.done
      | false =>
        refine ⟨_, ?_, rfl⟩
        simp only [lock, Queue.unfinished, Option.toList_none, List.append_nil, hends,
          Bool.false_eq_true, if_false]
        exact .starts q.done
    | cons =>
      refine ⟨_, ?_, rfl⟩
      simp only [lock, hq]
      exact .waits q
  next?_none := by
    rintro q _ rfl hnext
    unfold lock at hnext
    cases hq : q.unfinished with
    | nil => rfl
    | cons job rest => simp [hq] at hnext
  next?_some := by
    rintro ⟨done, running, waiting⟩ _ a rfl hnext
    cases running with
    | some job =>
      obtain rfl := Option.some.inj hnext
      exact ⟨job, _, .running done waiting, rfl, rfl, rfl⟩
    | none =>
      cases waiting with
      | nil => contradiction
      | cons job rest =>
        obtain rfl := Option.some.inj hnext
        exact ⟨job, _, .next done rest, rfl, rfl, rfl⟩

end SqlBatch.Session
