import Mathlib.Data.Multiset.Basic
import SqlBatch.Run.Session

/-! Sessions that answer every job once. Such a session owes the answers to the jobs that it was
handed and has not answered. Which of them it answers next, and whether it answers a job where it is
handed over, is its own affair; what it answers is a function of the job. Sessions that are frank
never keep silent about a job that is open, and tell last how it came out; those that are candid
tell no error but that. -/

namespace SqlBatch.Run

section
variable {σ : Type} {s : Session σ} {st : σ} {job : Job}

theorem Session.ask_of_outcome {o : Outcome} (h : (s.submit st job).outcome = some o) :
    s.ask st job =
      ⟨(s.submit st job).events, job.index, o, (s.submit st job).session⟩ := by
  simp [Session.ask, h]

theorem Session.ask_of_next? {a : Answer σ} (h : (s.submit st job).outcome = none)
    (hnext : s.next? (s.submit st job).session = some a) :
    s.ask st job = { a with events := (s.submit st job).events ++ a.events } := by
  simp [Session.ask, h, hnext]

theorem Session.ask_of_silence (h : (s.submit st job).outcome = none)
    (hnext : s.next? (s.submit st job).session = none) :
    s.ask st job = ⟨(s.submit st job).events, job.index, .error (.timeout job.bound),
      (s.submit st job).session⟩ := by
  simp [Session.ask, h, hnext]

end

/-- In a state that `owes` relates to `jobs`, exactly these jobs are unanswered, and from there on
every job is answered once, with its `outcome`. -/
structure Session.Answers {σ : Type} (s : Session σ) (outcome : Job → Outcome)
    (owes : σ → Multiset Job → Prop) : Prop where
  submit_some : ∀ {st : σ} {jobs : Multiset Job} {job : Job} {o : Outcome}, owes st jobs →
    (s.submit st job).outcome = some o → o = outcome job ∧ owes (s.submit st job).session jobs
  submit_none : ∀ {st : σ} {jobs : Multiset Job} {job : Job}, owes st jobs →
    (s.submit st job).outcome = none → owes (s.submit st job).session (job ::ₘ jobs)
  next?_none : ∀ {st : σ} {jobs : Multiset Job}, owes st jobs → s.next? st = none → jobs = 0
  next?_some : ∀ {st : σ} {jobs : Multiset Job} {a : Answer σ}, owes st jobs →
    s.next? st = some a → ∃ job rest, jobs = job ::ₘ rest ∧ a.index = job.index ∧
      a.outcome = outcome job ∧ owes a.session rest

namespace Session.Answers
variable {σ : Type} {s : Session σ} {outcome : Job → Outcome} {owes : σ → Multiset Job → Prop}

theorem ask (hs : s.Answers outcome owes) {st : σ} (hidle : owes st 0) (job : Job) :
    (s.ask st job).outcome = outcome job ∧ owes (s.ask st job).session 0 := by
  cases houtcome : (s.submit st job).outcome with
  | some o =>
    rw [Session.ask_of_outcome houtcome]
    exact hs.submit_some hidle houtcome
  | none =>
    have howed := hs.submit_none hidle houtcome
    cases hnext : s.next? (s.submit st job).session with
    | none => exact absurd (hs.next?_none howed hnext) Multiset.cons_ne_zero
    | some a =>
      -- only this job is owed, so the next answer is its answer
      obtain ⟨job', rest, hjobs, -, hanswer, hrest⟩ := hs.next?_some howed hnext
      rw [Multiset.cons_zero, Multiset.singleton_eq_cons_iff] at hjobs
      obtain ⟨rfl, rfl⟩ := hjobs
      rw [Session.ask_of_next? houtcome hnext]
      exact ⟨hanswer, hrest⟩

end Session.Answers

def Event.isError : Event → Bool
  | .log n => n.level == .error
  | _ => false

def Calm (events : List Event) : Prop := ∀ e ∈ events, e.isError = false

section
variable {events events' : List Event}

theorem calm_nil : Calm [] := List.forall_mem_nil _

theorem calm_append : Calm (events ++ events') ↔ Calm events ∧ Calm events' :=
  List.forall_mem_append

theorem calm_singleton {e : Event} : Calm [e] ↔ e.isError = false := List.forall_mem_singleton

def Tells (events : List Event) (o : Outcome) : Prop :=
  ∃ front sql, events = front ++ [.done sql o.isOk] ∧ Calm front

def Concludes (events : List Event) (o : Outcome) : Prop :=
  ∃ front sql, events = front ++ [.done sql o.isOk]

theorem Tells.concludes {o : Outcome} (h : Tells events o) : Concludes events o := by
  obtain ⟨front, sql, htold, -⟩ := h
  exact ⟨front, sql, htold⟩

theorem Concludes.append {o : Outcome} (h : Concludes events' o) :
    Concludes (events ++ events') o := by
  obtain ⟨front, sql, rfl⟩ := h
  exact ⟨events ++ front, sql, (List.append_assoc ..).symm⟩

theorem Tells.calm {o : Outcome} (h : Tells events o) : Calm events := by
  obtain ⟨front, sql, rfl, hfront⟩ := h
  exact calm_append.2 ⟨hfront, calm_singleton.2 rfl⟩

theorem Tells.append {o : Outcome} (hcalm : Calm events) (h : Tells events' o) :
    Tells (events ++ events') o := by
  obtain ⟨front, sql, rfl, hfront⟩ := h
  exact ⟨events ++ front, sql, (List.append_assoc ..).symm, calm_append.2 ⟨hcalm, hfront⟩⟩

end

/-- A job that is not answered where it is handed over has an answer to come. -/
structure Session.Frank {σ : Type} (s : Session σ) : Prop where
  submit_some : ∀ {st : σ} {job : Job} {o : Outcome}, (s.submit st job).outcome = some o →
    Concludes (s.submit st job).events o
  submit_none : ∀ {st : σ} {job : Job}, (s.submit st job).outcome = none →
    (s.next? (s.submit st job).session).isSome = true
  next?_some : ∀ {st : σ} {a : Answer σ}, s.next? st = some a → Concludes a.events a.outcome

theorem Session.Frank.ask {σ : Type} {s : Session σ} (hs : s.Frank) (st : σ) (job : Job) :
    Concludes (s.ask st job).events (s.ask st job).outcome := by
  cases houtcome : (s.submit st job).outcome with
  | some o =>
    rw [Session.ask_of_outcome houtcome]
    exact hs.submit_some houtcome
  | none =>
    obtain ⟨a, hnext⟩ := Option.isSome_iff_exists.1 (hs.submit_none houtcome)
    rw [Session.ask_of_next? houtcome hnext]
    exact (hs.next?_some hnext).append

structure Session.Candid {σ : Type} (s : Session σ) : Prop where
  submit_some : ∀ {st : σ} {job : Job} {o : Outcome}, (s.submit st job).outcome = some o →
    Tells (s.submit st job).events o
  submit_none : ∀ {st : σ} {job : Job}, (s.submit st job).outcome = none →
    Calm (s.submit st job).events ∧ (s.next? (s.submit st job).session).isSome = true
  next?_some : ∀ {st : σ} {a : Answer σ}, s.next? st = some a → Tells a.events a.outcome

theorem Session.Candid.frank {σ : Type} {s : Session σ} (hs : s.Candid) : s.Frank where
  submit_some h := (hs.submit_some h).concludes
  submit_none h := (hs.submit_none h).2
  next?_some h := (hs.next?_some h).concludes

theorem Session.Candid.ask {σ : Type} {s : Session σ} (hs : s.Candid) (st : σ) (job : Job) :
    Tells (s.ask st job).events (s.ask st job).outcome := by
  cases houtcome : (s.submit st job).outcome with
  | some o =>
    rw [Session.ask_of_outcome houtcome]
    exact hs.submit_some houtcome
  | none =>
    obtain ⟨hcalm, hanswer⟩ := hs.submit_none houtcome
    obtain ⟨a, hnext⟩ := Option.isSome_iff_exists.1 hanswer
    rw [Session.ask_of_next? houtcome hnext]
    exact (hs.next?_some hnext).append hcalm

end SqlBatch.Run
