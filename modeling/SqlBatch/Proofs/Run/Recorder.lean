import SqlBatch.Proofs.Except
import SqlBatch.Proofs.Run.Answers
import SqlBatch.Proofs.Run.Record
import SqlBatch.Session.Turns

/-! Behind the recorder every source keeps a record of its connections, whatever it tells itself. A
session that never keeps silent about a job is frank there. -/

namespace SqlBatch.Run

@[simp] theorem record_unrecorded (events : List Event) : record (unrecorded events) = [] := by
  simp [record, unrecorded, List.filter_filter]

theorem record_cons_unrecorded {e : Event} (he : e.isOfConnection = true) (events : List Event) :
    record (e :: unrecorded events) = [e] := by
  rw [record, List.filter_cons_of_pos he, ← record, record_unrecorded]

namespace Recorder
variable {σ : Type} {s : Session σ} {r : Recorder σ} {job : Job}

theorem mem_of_answered? {index : Nat} (h : r.answered? index = some job) : job ∈ r.opened := by
  rcases Option.or_eq_some_iff.1 h with hfound | ⟨-, hhead⟩
  · exact List.mem_of_find?_eq_some hfound
  · exact List.mem_of_head? hhead

theorem exists_answered? (h : r.opened ≠ []) (index : Nat) :
    ∃ job, r.answered? index = some job := by
  obtain ⟨job, rest, hopened⟩ := List.exists_cons_of_ne_nil h
  refine Option.isSome_iff_exists.1 ?_
  simp [answered?, hopened]

/-- The texts of the jobs that are not answered. -/
def pending (r : Recorder σ) : Multiset String := r.opened.map Job.sql

theorem submit_of_some {o : Outcome} (h : (s.submit r.session job).outcome = some o) :
    submit s r job =
      ⟨.issue job.sql job.bound :: unrecorded (s.submit r.session job).events ++
        [.done job.sql o.isOk], some o,
        { r with session := (s.submit r.session job).session }⟩ := by
  simp [submit, h]

theorem submit_of_none (h : (s.submit r.session job).outcome = none) :
    submit s r job =
      ⟨.issue job.sql job.bound :: unrecorded (s.submit r.session job).events, none,
        ⟨(s.submit r.session job).session, r.opened ++ [job]⟩⟩ := by
  simp [submit, h]

theorem exists_of_next? {a : Answer (Recorder σ)} (h : next? s r = some a) :
    ∃ answer job, s.next? r.session = some answer ∧ r.answered? answer.index = some job ∧
      a = ⟨unrecorded answer.events ++ [.done job.sql answer.outcome.isOk], answer.index,
        answer.outcome, ⟨answer.session, r.opened.erase job⟩⟩ := by
  obtain ⟨answer, hnext, hrest⟩ := Option.bind_eq_some_iff.1 h
  obtain ⟨job, hjob, heq⟩ := Option.bind_eq_some_iff.1 hrest
  exact ⟨answer, job, hnext, hjob, (Option.some.inj heq).symm⟩

@[simp] theorem outcome_submit : (submit s r job).outcome = (s.submit r.session job).outcome := by
  cases houtcome : (s.submit r.session job).outcome with
  | some o => rw [submit_of_some houtcome]
  | none => rw [submit_of_none houtcome]

end Recorder

namespace Session
variable {σ : Type} {s : Session σ}

theorem records_recorded (s : Session σ) : s.recorded.Records Recorder.pending where
  submit_some := by
    intro r job o ho
    have hsubmit := Recorder.submit_of_some (Recorder.outcome_submit.symm.trans ho)
    change Recorder.pending (Recorder.submit s r job).session = r.pending ∧ _
    refine ⟨by rw [hsubmit]; rfl, o.isOk, ?_⟩
    change record (Recorder.submit s r job).events = _
    rw [hsubmit, record_append, record_cons_unrecorded rfl]
    rfl
  submit_none := by
    intro r job ho
    have hsubmit := Recorder.submit_of_none (Recorder.outcome_submit.symm.trans ho)
    constructor
    · change (Recorder.submit s r job).session.pending = _
      rw [hsubmit, Recorder.pending, List.map_append, ← Multiset.coe_add, add_comm]
      rfl
    · change record (Recorder.submit s r job).events = _
      rw [hsubmit, record_cons_unrecorded rfl]
  next?_some := by
    intro r a hnext
    obtain ⟨answer, job, -, hjob, rfl⟩ := Recorder.exists_of_next? hnext
    refine ⟨job.sql, answer.outcome.isOk, ?_, ?_⟩
    · have hperm := (List.perm_cons_erase (Recorder.mem_of_answered? hjob)).map Job.sql
      rw [Recorder.pending, Multiset.coe_eq_coe.2 hperm]
      rfl
    · rw [record_append, record_unrecorded]
      rfl
  abandon _ := rfl

theorem frank_recorded (hs : ∀ {st : σ} {job : Job}, (s.submit st job).outcome = none →
    (s.next? (s.submit st job).session).isSome = true) : s.recorded.Frank where
  submit_some := by
    intro r job o ho
    change Concludes (Recorder.submit s r job).events o
    rw [Recorder.submit_of_some (Recorder.outcome_submit.symm.trans ho)]
    exact ⟨_, _, rfl⟩
  submit_none := by
    intro r job ho
    change (Recorder.next? s (Recorder.submit s r job).session).isSome = true
    have houtcome := Recorder.outcome_submit.symm.trans ho
    obtain ⟨answer, hnext⟩ := Option.isSome_iff_exists.1 (hs houtcome)
    rw [Recorder.submit_of_none houtcome]
    -- the job itself is open, so that there is one to book the answer to
    obtain ⟨opened, hopened⟩ := Recorder.exists_answered?
      (r := ⟨(s.submit r.session job).session, r.opened ++ [job]⟩) (by simp) answer.index
    simp [Recorder.next?, hnext, hopened]
  next?_some := by
    intro r a hnext
    obtain ⟨answer, job, -, -, rfl⟩ := Recorder.exists_of_next? hnext
    exact ⟨_, _, rfl⟩

theorem frank_recorded_turns {τ : Type} (line : Session.Line τ) :
    (Session.Turns.session line).recorded.Frank := by
  refine frank_recorded fun {st job} _ => ?_
  -- whoever has just been handed over stands in the queue
  obtain ⟨first, rest, hwaiting⟩ :=
    List.exists_cons_of_ne_nil (show st.waiting ++ [job] ≠ [] by simp)
  simp [Session.Turns.session, Session.Turns.submit, Session.Turns.next?, hwaiting]

end Session

namespace Provider
variable {π σ : Type}

theorem records_recorded (source : Provider π σ) : source.recorded.Records Recorder.pending where
  session := source.session.records_recorded
  connect := by
    intro st c
    exact record_cons_unrecorded rfl _
  fresh := by
    intro st c r hopen
    obtain ⟨connection, -, rfl⟩ := exists_of_map_eq_ok hopen
    rfl
  close := by
    intro st r
    exact record_cons_unrecorded rfl _

end Provider

end SqlBatch.Run
