import SqlBatch.Proofs.Session.Clock
import SqlBatch.Proofs.Session.Sqlite.Runs

/-! A SQLite connection is a lawful dispatcher. As long as no statement is dropped, the one that has
the turn is the only one that has a task at work, and a task is skipped only behind its bound. -/

namespace SqlBatch.Session.Sqlite

open Run

namespace Dispatch

/-- What the one who waits tells of the task. -/
def Tidy (d : Dispatch) : Prop :=
  match d.waiter with
  | .queued => d.task = .absent ∧ d.flagged = false
  | .waiting => d.task ≠ .absent ∧ d.task ≠ .ended none ∧ d.flagged = false
  | .expired | .flagged | .awaiting => d.task ≠ .absent
  | .answered _ => ∃ result, d.task = .ended result
  | .dropped => False

variable {d d' : Dispatch} {m : Move}

theorem Tidy.step (h : d.Tidy) (hm : Steps d m d') (hkept : m ≠ .abandon) : d'.Tidy := by
  cases hm with
  | abandonQueued | abandonWaiting | abandonAwaiting => contradiction
  | takeTurn => simp_all [Tidy]
  | @obtain job waiter flagged | @begin job waiter | @skip job waiter | @finish job waiter =>
    cases waiter <;> simp_all [Tidy]
  | expire | flag | interrupt => simp_all [Tidy]
  | joinInTime | joinLate => exact ⟨_, rfl⟩

theorem answerInTime_some {bound : Duration} (result : Except String Unit) :
    answerInTime bound (some result) = result.mapError .sqlite := by
  cases result <;> rfl

theorem answerLate_eq {bound : Duration} (result : Option (Except String Unit)) :
    answerLate bound result =
      Ticket.lateAnswer true bound (result.map (·.mapError .sqlite)) := by
  rcases result with _ | _ | _ <;> rfl

theorem Tidy.ticket (h : d.Tidy) (hm : Steps d m d') (hkept : m ≠ .abandon) :
    d.ticket.Step true d.job.bound m.signal d'.ticket := by
  cases hm with
  | abandonQueued | abandonWaiting | abandonAwaiting => contradiction
  | takeTurn => exact .starts
  | @obtain job waiter flagged | @begin job waiter | @skip job waiter =>
    cases waiter with
    | waiting | expired | flagged | awaiting => exact .passes rfl
    | queued | answered | dropped => simp_all [Tidy]
  | @finish job waiter flagged executed =>
    cases waiter with
    | waiting => exact .comes _
    | expired | flagged | awaiting => exact .comesLate _
    | queued | answered | dropped => simp_all [Tidy]
  | @expire job task flagged =>
    cases task with
    | ended result =>
      cases result with
      | none => simp_all [Tidy]
      | some result => exact .overlooks _ _
    | absent | queued | holding | running => exact .expires
  | flag | interrupt => exact .passes rfl
  | @joinInTime job result flagged =>
    cases result with
    | none => simp_all [Tidy]
    | some result =>
      rw [answerInTime_some]
      exact .answers _
  | @joinLate job result flagged =>
    have hcame : (mk job .awaiting (.ended result) flagged).came? =
        result.map (·.mapError .sqlite) := by
      cases result <;> rfl
    rw [answerLate_eq, ← hcame]
    exact .answersLate _

theorem Tidy.hasTurn (h : d.Tidy) (hhas : d.hasConnection = true) : d.hasTurn = true := by
  obtain ⟨job, waiter, task, flagged⟩ := d
  cases waiter with
  | waiting | expired | flagged | awaiting => rfl
  | queued | answered | dropped =>
    cases task <;> simp_all [Tidy, hasConnection]

theorem hasTurn_ticket (d : Dispatch) : d.ticket.hasTurn = d.hasTurn := by
  obtain ⟨job, waiter, task, flagged⟩ := d
  cases waiter with
  | waiting =>
    simp only [ticket]
    split <;> rfl
  | queued | expired | flagged | awaiting | answered | dropped => rfl

end Dispatch

section
variable {answer : List String → Executed} {jobs : List Job} {ds ds' : List Dispatch} {i n : Nat}
  {m : Move}

theorem exists_steps_of_dispatcher (h : (dispatcher answer).move? ds i m = some ds') :
    m.isDue answer ds i = true ∧ m.isFree ds = true ∧
      ∃ d d', ds[i]? = some d ∧ d.Steps m d' ∧ ds' = ds.set i d' := by
  simp only [dispatcher] at h
  split at h
  · rename_i hdue
    obtain ⟨d, d', hd, -, hsteps, hset⟩ := exists_steps h
    exact ⟨hdue, isFree_of_move? h, d, d', hd, hsteps, hset⟩
  · contradiction

theorem isSome_move? {d : Dispatch} (hd : ds[i]? = some d) (hfree : m.isFree ds = true)
    (hdue : m.isDue answer ds i = true) (h : (d.move? m).isSome = true) :
    ((dispatcher answer).move? ds i m).isSome = true := by
  simpa [dispatcher, move?, hd, hfree, hdue] using h

structure Sound (jobs : List Job) (ds : List Dispatch) : Prop where
  tidy : ∀ d ∈ ds, d.Tidy
  jobs : ds.map Dispatch.job = jobs

theorem Sound.step (h : Sound jobs ds) (hmove : (dispatcher answer).move? ds i m = some ds')
    (hkept : m.signal ≠ .abandons) : Sound jobs ds' := by
  obtain ⟨-, -, d, d', hd, hsteps, rfl⟩ := exists_steps_of_dispatcher hmove
  constructor
  · intro e he
    rcases List.mem_or_eq_of_mem_set he with he | rfl
    · exact h.tidy e he
    · exact (h.tidy d (List.mem_of_getElem? hd)).step hsteps (by rintro rfl; contradiction)
  · rw [map_set_of_eq hd hsteps.job_eq, h.jobs]

theorem Sound.sqls (h : Sound jobs ds) (k : Nat) :
    (ds.take k).map (·.job.sql) = (jobs.take k).map Job.sql := by
  rw [← h.jobs, ← List.map_take, List.map_map]
  rfl

theorem exists_dispatch {x : Ticket} (h : ((dispatcher answer).tickets ds)[i]? = some x) :
    ∃ d, ds[i]? = some d ∧ d.ticket = x := by
  simpa [dispatcher] using h

/-- The connection is free for the one who has the turn. -/
theorem Sound.isFree_obtain (h : Sound jobs ds) {d : Dispatch} (hd : ds[i]? = some d)
    (hqueued : d.task = .queued)
    (halone : ∀ j e, j ≠ i → ds[j]? = some e → e.hasTurn = false) :
    Move.obtain.isFree ds = true := by
  refine Sqlite.isFree_obtain.2 fun e he => ?_
  obtain ⟨j, hj⟩ := List.getElem?_of_mem he
  rw [Bool.eq_false_iff]
  intro hhas
  have hturn := (h.tidy e he).hasTurn hhas
  by_cases hji : j = i
  · subst hji
    obtain rfl : d = e := Option.some.inj (hd.symm.trans hj)
    simp [Dispatch.hasConnection, hqueued] at hhas
  · rw [halone j e hji hj] at hturn
    contradiction

theorem Sound.goesOn (h : Sound jobs ds) {d : Dispatch} (hd : ds[i]? = some d)
    (hlate : d.waiter = .awaiting)
    (halone : ∀ j e, j ≠ i → ds[j]? = some e → e.hasTurn = false) :
    ∃ m, ((dispatcher answer).move? ds i m).isSome = true ∧
      (m.signal = .passes ∨ ∃ o, m.signal = .comes o) := by
  have htidy := h.tidy d (List.mem_of_getElem? hd)
  have hmove (m : Move) (hfree : m.isFree ds = true) (hmade : (d.move? m).isSome = true) :
      ((dispatcher answer).move? ds i m).isSome = true := by
    refine isSome_move? hd hfree ?_ hmade
    cases m with
    | finish executed => simp [Move.isDue, hd, hlate]
    | takeTurn | obtain | begin | skip | expire | flag | interrupt | join | abandon => rfl
  obtain ⟨job, waiter, task, flagged⟩ := d
  obtain rfl : waiter = .awaiting := hlate
  cases task with
  | absent => exact absurd rfl htidy
  | queued => exact ⟨.obtain, hmove _ (h.isFree_obtain hd rfl halone) rfl, .inl rfl⟩
  | holding =>
    cases flagged with
    | false => exact ⟨.begin, hmove _ rfl rfl, .inl rfl⟩
    | true => exact ⟨.skip, hmove _ rfl rfl, .inl rfl⟩
  | running => exact ⟨.finish .done, hmove _ rfl rfl, .inr ⟨_, rfl⟩⟩
  | ended result => exact ⟨.join, hmove _ rfl rfl, .inl rfl⟩

end
end SqlBatch.Session.Sqlite
