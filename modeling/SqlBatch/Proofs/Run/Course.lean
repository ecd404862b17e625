import SqlBatch.Proofs.Run.Answers
import SqlBatch.Run.Executor

/-! What the small actions of a run change. Notes change nothing but the trace; an answer that the
policy tolerates is counted, and any other ends the run. -/

namespace SqlBatch

def Policy.Tolerates (p : Policy) (o : Run.Outcome) : Prop := p.force = true ∨ o = .ok ()

namespace Run

def Report.credit (r : Report) (index : Nat) : Outcome → Report
  | .ok () => r.countSuccess
  | .error f => r.addFailure ⟨index, f.message⟩

namespace Course
variable {σ : Type} (c : Course σ) (p : Policy) (v : Verbosity) (n : Note) (file : String)
  (x : Statement) (events : List Event) (index : Nat) (o : Outcome)

@[simp] theorem session_note : (c.note n).session = c.session := rfl

@[simp] theorem report_note : (c.note n).report = c.report := rfl

@[simp] theorem ended_note : (c.note n).ended = c.ended := rfl

section
variable {β : Type} {f : Course σ → β} (hf : ∀ (c : Course σ) (n : Note), f (c.note n) = f c)
include hf

/-! What no note changes, no announcement changes. -/

theorem apply_progress : f (c.progress p v n) = f c := by
  unfold progress
  split
  · exact hf c n
  · rfl

theorem apply_announce : f (c.announce p file x) = f c := by
  unfold announce
  split
  · exact hf c _
  · rfl

theorem apply_announce_all (statements : List Statement) :
    f (statements.foldl (fun c x => c.announce p file x) c) = f c := by
  induction statements generalizing c with
  | nil => rfl
  | cons x xs ih => exact (ih (c.announce p file x)).trans (c.apply_announce p file x hf)

end

@[simp] theorem session_progress : (c.progress p v n).session = c.session :=
  c.apply_progress p v n session_note

@[simp] theorem report_progress : (c.progress p v n).report = c.report :=
  c.apply_progress p v n report_note

@[simp] theorem ended_progress : (c.progress p v n).ended = c.ended :=
  c.apply_progress p v n ended_note

@[simp] theorem session_announce : (c.announce p file x).session = c.session :=
  c.apply_announce p file x session_note

@[simp] theorem report_announce : (c.announce p file x).report = c.report :=
  c.apply_announce p file x report_note

@[simp] theorem ended_announce : (c.announce p file x).ended = c.ended :=
  c.apply_announce p file x ended_note

@[simp] theorem session_observe : (c.observe events).session = c.session := rfl

@[simp] theorem report_observe : (c.observe events).report = c.report := rfl

@[simp] theorem ended_observe : (c.observe events).ended = c.ended := rfl

@[simp] theorem session_settle : (c.settle p file index o).session = c.session := by
  unfold settle
  split
  · simp
  · split <;> rfl

@[simp] theorem session_start (st : σ) : (start p file st).session = st := session_progress ..

@[simp] theorem report_start (st : σ) : (start p file st).report = { file := file } :=
  report_progress ..

@[simp] theorem ended_start (st : σ) : (start p file st).ended = none := ended_progress ..

@[simp] theorem ended_conclude : (c.conclude p file).ended = c.ended := ended_progress ..

@[simp] theorem report_conclude : (c.conclude p file).report = c.report.sorted :=
  report_progress ..

variable {c p o}

theorem result_eq_ok {r : Report} : c.result = .ok r ↔ c.ended = none ∧ c.report = r := by
  unfold result
  cases c.ended <;> simp

theorem unlessEnded_of_none (h : c.ended = none) (f : Course σ → Course σ) :
    c.unlessEnded f = f c := by
  simp [unlessEnded, h]

theorem unlessEnded_of_isSome (h : c.ended.isSome = true) (f : Course σ → Course σ) :
    c.unlessEnded f = c := by
  simp [unlessEnded, h]

theorem ended_settle (h : p.Tolerates o) : (c.settle p file index o).ended = c.ended := by
  unfold settle
  split
  · simp
  · rename_i f
    have hforce : p.force = true := h.resolve_right (by simp)
    simp [hforce]

theorem report_settle (h : p.Tolerates o) :
    (c.settle p file index o).report = c.report.credit index o := by
  unfold settle
  split
  · simp [Report.credit]
  · rename_i f
    have hforce : p.force = true := h.resolve_right (by simp)
    simp [hforce, Report.credit]

theorem ended_settle_of_not (h : ¬p.Tolerates o) :
    (c.settle p file index o).ended.isSome = true := by
  rw [Policy.Tolerates, not_or] at h
  unfold settle
  split
  · exact absurd rfl h.2
  · simp [h.1]

def submitted (s : Session σ) (c : Course σ) (job : Job) : Course σ :=
  observe { c with session := (s.submit c.session job).session } (s.submit c.session job).events

def answered (c : Course σ) (a : Answer σ) : Course σ :=
  observe { c with session := a.session } a.events

section
variable {s : Session σ} {job : Job}

theorem ask_of_outcome (h : (s.submit c.session job).outcome = some o) :
    ask s c job = (c.submitted s job, o) := by
  simp only [ask, Session.ask_of_outcome h]
  rfl

theorem ask_of_next? {a : Answer σ} (h : (s.submit c.session job).outcome = none)
    (hnext : s.next? (s.submit c.session job).session = some a) :
    ask s c job = ((c.submitted s job).answered a, a.outcome) := by
  have htrace : c.trace ++ ((s.submit c.session job).events ++ a.events) =
      c.trace ++ (s.submit c.session job).events ++ a.events :=
    Array.toList_inj.1 (by simp)
  simp [ask, Session.ask_of_next? h hnext, submitted, answered, observe, htrace]

theorem ask_of_silence (h : (s.submit c.session job).outcome = none)
    (hnext : s.next? (s.submit c.session job).session = none) :
    ask s c job = (c.submitted s job, .error (.timeout job.bound)) := by
  simp only [ask, Session.ask_of_silence h hnext]
  rfl

variable {x}

theorem handOver_of_isEmpty (hx : x.isEmpty = true) :
    c.handOver s p file x = c.skipBlank p file x := by
  rw [handOver, if_pos hx]

theorem handOver_of_outcome (hx : x.isEmpty = false)
    (h : (s.submit c.session (jobOf p x)).outcome = some o) :
    c.handOver s p file x = (c.submitted s (jobOf p x)).settle p file x.index o := by
  simp [handOver, hx, h, submitted]

theorem handOver_of_silence (hx : x.isEmpty = false)
    (h : (s.submit c.session (jobOf p x)).outcome = none) :
    c.handOver s p file x = c.submitted s (jobOf p x) := by
  simp [handOver, hx, h, submitted]

end

/-! Once a run has ended, nothing more is taken up. -/

theorem foldl_unlessEnded_of_isSome (f : Course σ → Statement → Course σ)
    (h : c.ended.isSome = true) (statements : List Statement) :
    statements.foldl (fun c x => c.unlessEnded fun c => f c x) c = c := by
  induction statements with
  | nil => rfl
  | cons x xs ih => rwa [List.foldl_cons, unlessEnded_of_isSome h]

theorem drain_of_isSome {s : Session σ} (h : c.ended.isSome = true) (n : Nat) :
    c.drain s p file n = c := by
  cases n with
  | zero => rfl
  | succ n => simp [drain, h]

end Course
end Run
end SqlBatch
