import SqlBatch.Proofs.Run.Moves
import SqlBatch.Run.Recorder

/-! What a run leaves in the record of its connection. The record of work is a sequence of
statements handed over and statements completed, in which each completion is of a statement that was
handed over before and is still open. A run hands over the database switch and then its statements
in source order; one that ends early leaves the rest of them out, and may leave some open. -/

namespace SqlBatch.Run

section
variable (events events' : List Event)

@[simp] theorem record_nil : record [] = [] := rfl

@[simp] theorem record_append : record (events ++ events') = record events ++ record events' :=
  List.filter_append ..

@[simp] theorem record_log (n : Note) : record (.log n :: events) = record events := rfl

end

/-- A record of work on a connection: `jobs` were handed over in this order, and statements of the
texts in `unfinished` are not completed. -/
inductive Work : List Job → Multiset String → List Event → Prop
  | start : Work [] 0 []
  | issue {jobs : List Job} {unfinished : Multiset String} {work : List Event} (job : Job) :
      Work jobs unfinished work →
      Work (jobs ++ [job]) (job.sql ::ₘ unfinished) (work ++ [.issue job.sql job.bound])
  | done {jobs : List Job} {unfinished : Multiset String} {work : List Event} (sql : String)
      (ok : Bool) :
      Work jobs (sql ::ₘ unfinished) work → Work jobs unfinished (work ++ [.done sql ok])

/-- Each operation of the session records itself. The texts of the statements that a session has
open are `pending`. -/
structure Session.Records {σ : Type} (s : Session σ) (pending : σ → Multiset String) : Prop where
  submit_some : ∀ {st : σ} {job : Job} {o : Outcome}, (s.submit st job).outcome = some o →
    pending (s.submit st job).session = pending st ∧
    ∃ ok, record (s.submit st job).events = [.issue job.sql job.bound, .done job.sql ok]
  submit_none : ∀ {st : σ} {job : Job}, (s.submit st job).outcome = none →
    pending (s.submit st job).session = job.sql ::ₘ pending st ∧
    record (s.submit st job).events = [.issue job.sql job.bound]
  next?_some : ∀ {st : σ} {a : Answer σ}, s.next? st = some a →
    ∃ sql ok, pending st = sql ::ₘ pending a.session ∧ record a.events = [.done sql ok]
  abandon : ∀ st : σ, pending (s.abandon st) = 0

/-- Each operation of the source records itself, whether it succeeds or fails, and a new connection
has nothing open. -/
structure Provider.Records {π σ : Type} (source : Provider π σ) (pending : σ → Multiset String) :
    Prop where
  session : source.session.Records pending
  connect : ∀ (st : π) (c : Config), record (source.connect st c).events = [connecting c]
  fresh : ∀ {st : π} {c : Config} {connection : σ},
    (source.connect st c).result = .ok connection → pending connection = 0
  close : ∀ (st : π) (connection : σ), record (source.close st connection).events = [.close]

def agenda {σ : Type} (s : Session σ) (p : Policy) (st : σ) (statements : List Statement) :
    List Job :=
  (switchJob? s p st).toList ++ jobsOf p statements

namespace Course
variable {σ : Type}

def work (c : Course σ) : List Event := record c.trace.toList

section
variable (c : Course σ) (p : Policy) (file : String)

@[simp] theorem work_note (n : Note) : (c.note n).work = c.work := by
  simp [work, note]

@[simp] theorem work_progress (v : Verbosity) (n : Note) : (c.progress p v n).work = c.work :=
  c.apply_progress p v n work_note

@[simp] theorem work_observe (events : List Event) :
    (c.observe events).work = c.work ++ record events := by
  simp [work, observe]

theorem work_ask (s : Session σ) (job : Job) :
    (ask s c job).1.work = c.work ++ record (s.ask c.session job).events :=
  work_observe ..

@[simp] theorem work_settle (index : Nat) (o : Outcome) :
    (c.settle p file index o).work = c.work := by
  unfold settle
  split
  · exact work_progress ..
  · split <;> exact c.work_note _

end

/-- The run has handed over `jobs`, and what it has left unfinished is what the session has open. -/
def Works (pending : σ → Multiset String) (jobs : List Job) (c : Course σ) : Prop :=
  Work jobs (pending c.session) c.work

section
variable {pending : σ → Multiset String} {jobs : List Job} {c c' : Course σ} {s : Session σ}
  {p : Policy}

theorem Works.of_eq (h : Works pending jobs c) (hsession : c'.session = c.session)
    (hwork : c'.work = c.work) : Works pending jobs c' := by
  unfold Works
  rw [hsession, hwork]
  exact h

theorem Works.submitted (hs : s.Records pending) (h : Works pending jobs c) (job : Job) :
    Works pending (jobs ++ [job]) (c.submitted s job) := by
  have hissued := Work.issue job h
  unfold Works Course.submitted
  rw [work_observe, session_observe]
  cases houtcome : (s.submit c.session job).outcome with
  | none =>
    obtain ⟨hpending, hevents⟩ := hs.submit_none houtcome
    rw [hpending, hevents]
    exact hissued
  | some o =>
    -- an answer at once: the statement is opened and completed in one move
    obtain ⟨hpending, ok, hevents⟩ := hs.submit_some houtcome
    have hdone := Work.done job.sql ok hissued
    rw [List.append_assoc] at hdone
    rw [hpending, hevents]
    exact hdone

theorem Works.answered (hs : s.Records pending) (h : Works pending jobs c) {a : Answer σ}
    (hnext : s.next? c.session = some a) : Works pending jobs (c.answered a) := by
  obtain ⟨sql, ok, hpending, hevents⟩ := hs.next?_some hnext
  unfold Works at h
  unfold Works Course.answered
  rw [hpending] at h
  rw [work_observe, session_observe, hevents]
  exact Work.done sql ok h

theorem Works.ask (hs : s.Records pending) (h : Works pending jobs c) (job : Job) :
    Works pending (jobs ++ [job]) (ask s c job).1 := by
  have hsubmitted := h.submitted hs job
  cases houtcome : (s.submit c.session job).outcome with
  | some o =>
    rw [ask_of_outcome houtcome]
    exact hsubmitted
  | none =>
    cases hnext : s.next? (s.submit c.session job).session with
    | none =>
      rw [ask_of_silence houtcome hnext]
      exact hsubmitted
    | some a =>
      rw [ask_of_next? houtcome hnext]
      exact hsubmitted.answered hs hnext

/-- Every move that hands over no job is no work, or completes a statement that is open. -/
theorem Moves.works (hs : s.Records pending) {file : String} {jobs' : List Job}
    (h : Moves s p file jobs' c c') (hworks : Works pending jobs c) :
    Works pending (jobs ++ jobs') c' := by
  induction h generalizing jobs with
  | trans _ _ ih ih' =>
    rw [← List.append_assoc]
    exact ih' (ih hworks)
  | ask c job => exact hworks.ask hs job
  | submit c job => exact hworks.submitted hs job
  | answer c a _ hnext =>
    rw [List.append_nil]
    exact hworks.answered hs hnext
  | note c n =>
    rw [List.append_nil]
    exact hworks.of_eq rfl (c.work_note n)
  | settle c index o =>
    rw [List.append_nil]
    exact hworks.of_eq (session_settle ..) (work_settle ..)
  | refl | count | keep | refuse | sort =>
    rw [List.append_nil]
    exact hworks.of_eq rfl rfl

end
end Course

theorem works_execute {σ : Type} {s : Session σ} {pending : σ → Multiset String}
    (hs : s.Records pending) (p : Policy) (file : String) (statements : List Statement) {st : σ}
    (hfresh : pending st = 0) :
    ∃ jobs, jobs <+: agenda s p st statements ∧
      (execute s p file statements st).Works pending jobs ∧
      ∀ r, (execute s p file statements st).result = .ok r → jobs = agenda s p st statements := by
  obtain ⟨taken, hprefix, hmoves, hall⟩ := Course.moves_execute s p file statements st
  have hstart : Course.Works pending [] { session := st, report := { file := file } } := by
    rw [Course.Works, hfresh]
    exact Work.start
  refine ⟨_, (List.prefix_append_right_inj _).2 hprefix, hmoves.works hs hstart, ?_⟩
  intro r hr
  rw [hall (Course.result_eq_ok.1 hr).1]
  rfl

end SqlBatch.Run
