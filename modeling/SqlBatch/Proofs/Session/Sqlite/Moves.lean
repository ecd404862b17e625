import SqlBatch.Session.Sqlite.Dispatch

/-! What a single move can make of a statement on a SQLite connection. `Steps` lists it once, with a
constructor for each branch that lets a move be made, and everything else here is a case analysis
over that list: `Recorded` ties the state of a statement to the moves that were made for it,
`IsDoomed` is a statement whose flag is raised before it has begun to run, and from `IsEnded` there
are no moves any more. -/

namespace SqlBatch.Session.Sqlite.Dispatch

open Run

inductive Steps : Dispatch → Move → Dispatch → Prop where
  | takeTurn {job flagged} :
    Steps ⟨job, .queued, .absent, flagged⟩ .takeTurn ⟨job, .waiting, .queued, flagged⟩
  | obtain {job waiter flagged} :
    Steps ⟨job, waiter, .queued, flagged⟩ .obtain ⟨job, waiter, .holding, flagged⟩
  | begin {job waiter} :
    Steps ⟨job, waiter, .holding, false⟩ .begin ⟨job, waiter, .running, false⟩
  | skip {job waiter} :
    Steps ⟨job, waiter, .holding, true⟩ .skip ⟨job, waiter, .ended none, true⟩
  | finish {job waiter flagged executed} :
    Steps ⟨job, waiter, .running, flagged⟩ (.finish executed)
      ⟨job, waiter, .ended (some executed.result), flagged⟩
  | expire {job task flagged} :
    Steps ⟨job, .waiting, task, flagged⟩ .expire ⟨job, .expired, task, flagged⟩
  | flag {job task flagged} :
    Steps ⟨job, .expired, task, flagged⟩ .flag ⟨job, .flagged, task, true⟩
  | interrupt {job task flagged} :
    Steps ⟨job, .flagged, task, flagged⟩ .interrupt ⟨job, .awaiting, task, flagged⟩
  | joinInTime {job result flagged} :
    Steps ⟨job, .waiting, .ended result, flagged⟩ .join
      ⟨job, .answered (answerInTime job.bound result), .ended result, flagged⟩
  | joinLate {job result flagged} :
    Steps ⟨job, .awaiting, .ended result, flagged⟩ .join
      ⟨job, .answered (answerLate job.bound result), .ended result, flagged⟩
  | abandonQueued {job task flagged} :
    Steps ⟨job, .queued, task, flagged⟩ .abandon ⟨job, .dropped, task, flagged⟩
  | abandonWaiting {job task flagged} :
    Steps ⟨job, .waiting, task, flagged⟩ .abandon ⟨job, .dropped, task, true⟩
  | abandonAwaiting {job task flagged} :
    Steps ⟨job, .awaiting, task, flagged⟩ .abandon ⟨job, .dropped, task, flagged⟩

theorem steps_of_move? {d d' : Dispatch} {m : Move} (h : d.move? m = some d') : Steps d m d' := by
  obtain ⟨job, waiter, task, flagged⟩ := d
  cases m with
  | takeTurn =>
    cases waiter <;> cases task <;> cases h
    constructor
  | expire | flag | interrupt =>
    cases waiter <;> cases h
    constructor
  | obtain | finish ended =>
    cases task <;> cases h
    constructor
  | begin | skip =>
    cases task <;> cases flagged <;> cases h
    constructor
  | join =>
    cases waiter <;> cases task <;> cases h
    · exact .joinInTime
    · exact .joinLate
  | abandon =>
    cases waiter <;> cases h
    · exact .abandonQueued
    · exact .abandonWaiting
    · exact .abandonAwaiting

theorem Steps.job_eq {d d' : Dispatch} {m : Move} (h : Steps d m d') : d'.job = d.job := by
  cases h <;> rfl

theorem Steps.hadConnection {d d' : Dispatch} {m : Move} (h : Steps d m d')
    (hhas : d'.hasConnection = true) : m = .obtain ∨ d.hasConnection = true := by
  cases h with
  | obtain => exact .inl rfl
  | takeTurn | skip | finish | joinInTime | joinLate => cases hhas
  | begin => exact .inr rfl
  | expire | flag | interrupt | abandonQueued | abandonWaiting | abandonAwaiting => exact .inr hhas

/-! ### The moves that are left -/

def movesLeft (d : Dispatch) : Nat :=
  (match d.waiter with
    | .queued | .waiting => 4
    | .expired => 3
    | .flagged => 2
    | .awaiting => 1
    | .answered _ | .dropped => 0) +
  match d.task with
  | .absent => 4
  | .queued => 3
  | .holding => 2
  | .running => 1
  | .ended _ => 0

theorem Steps.movesLeft_lt {d d' : Dispatch} {m : Move} (h : Steps d m d') :
    d'.movesLeft < d.movesLeft := by
  cases h <;> simp [movesLeft]

/-! ### Doomed statements -/

/-- It is flagged and has not begun to run, so that it never will. -/
structure IsDoomed (d : Dispatch) : Prop where
  flagged : d.flagged = true
  unrun : d.task = .absent ∨ d.task = .queued ∨ d.task = .holding ∨ d.task = .ended none
  answer : ∀ outcome, d.waiter = .answered outcome → outcome = .error (.timeout d.job.bound)

theorem IsDoomed.step {d d' : Dispatch} {m : Move} (h : d.IsDoomed) (hm : Steps d m d') :
    d'.IsDoomed := by
  obtain ⟨hflagged, hunrun, hanswer⟩ := h
  cases hm with
  | takeTurn => exact ⟨hflagged, by simp, by simp⟩
  | obtain => exact ⟨hflagged, by simp, hanswer⟩
  | begin => cases hflagged
  | skip => exact ⟨hflagged, by simp, hanswer⟩
  | finish => simp at hunrun
  | expire | interrupt | abandonQueued | abandonAwaiting => exact ⟨hflagged, hunrun, by simp⟩
  | flag | abandonWaiting => exact ⟨rfl, hunrun, by simp⟩
  | joinInTime | joinLate =>
    refine ⟨hflagged, hunrun, fun outcome houtcome => ?_⟩
    obtain rfl : _ = none := by simpa using hunrun
    cases houtcome
    rfl

theorem IsDoomed.not_runs {d d' : Dispatch} {m : Move} (h : d.IsDoomed) (hm : Steps d m d') :
    m ≠ .begin ∧ ∀ executed, m ≠ .finish executed := by
  have hflagged := h.flagged
  have hunrun := h.unrun
  cases hm <;> simp_all

/-! ### Statements that are answered -/

structure IsEnded (d : Dispatch) : Prop where
  answered : ∃ outcome, d.waiter = .answered outcome
  task : ∃ result, d.task = .ended result

theorem IsEnded.not_steps {d d' : Dispatch} {m : Move} (h : d.IsEnded) : ¬Steps d m d' := by
  intro hm
  obtain ⟨⟨outcome, hwaiter⟩, result, htask⟩ := h
  cases hm <;> simp_all

/-! ### What is on record -/

/-- What the moves that were made for a statement say about its task. -/
structure TaskRecorded (made : Move → Prop) (d : Dispatch) : Prop where
  obtained : d.task = .absent ∨ d.task = .queued ∨ made .obtain
  begun : made .begin → d.task = .running ∨ ∃ result, d.task = .ended (some result)
  finished : ∀ executed, made (.finish executed) → d.task = .ended (some executed.result)
  ended : ∀ result, d.task = .ended (some result) →
    ∃ executed, made (.finish executed) ∧ executed.result = result
  skipped : d.task = .ended none → made .skip

/-- What they say about the one who waits for its answer. -/
structure WaiterRecorded (made : Move → Prop) (d : Dispatch) : Prop where
  queued : d.waiter = .queued → d.task = .absent
  absent : d.task = .absent → d.waiter = .queued ∨ d.waiter = .dropped
  turn : made .takeTurn → d.waiter ≠ .queued
  kept : d.waiter = .dropped → made .abandon
  answered : ∀ outcome, d.waiter = .answered outcome →
    ∃ result, d.task = .ended result ∧ (outcome = .ok () ↔ result = some (.ok ()))

section
variable {made : Move → Prop} {d d' : Dispatch} {m : Move}

theorem TaskRecorded.step (h : TaskRecorded made d) (hm : Steps d m d') :
    TaskRecorded (fun x => made x ∨ x = m) d' := by
  obtain ⟨hobtained, hbegun, hfinished, hended, hskipped⟩ := h
  cases hm with
  | takeTurn | obtain | begin | skip | finish => constructor <;> simp_all
  | expire | flag | interrupt | joinInTime | joinLate
  | abandonQueued | abandonWaiting | abandonAwaiting =>
    -- the task is as it was, and the move is none of its own
    constructor
    · simpa using hobtained
    · simpa using hbegun
    · simpa using hfinished
    · simpa using hended
    · simpa using hskipped

theorem answerInTime_eq_ok {bound : Duration} {result : Option (Except String Unit)} :
    answerInTime bound result = .ok () ↔ result = some (.ok ()) := by
  rcases result with _ | _ | _ <;> simp [answerInTime]

theorem answerLate_eq_ok {bound : Duration} {result : Option (Except String Unit)} :
    answerLate bound result = .ok () ↔ result = some (.ok ()) := by
  rcases result with _ | _ | _ <;> simp [answerLate]

theorem WaiterRecorded.step (h : WaiterRecorded made d) (hm : Steps d m d') :
    WaiterRecorded (fun x => made x ∨ x = m) d' := by
  obtain ⟨hqueued, habsent, hturn, hkept, hanswered⟩ := h
  cases hm with
  | takeTurn | obtain | begin | skip | finish => constructor <;> simp_all
  | expire | flag | interrupt | abandonQueued | abandonWaiting | abandonAwaiting =>
    constructor <;> simp_all
  | joinInTime => constructor <;> simp_all [answerInTime_eq_ok]
  | joinLate => constructor <;> simp_all [answerLate_eq_ok]

end

/-- All that is on record about a statement. -/
structure Recorded (made : Move → Prop) (d : Dispatch) : Prop extends
  TaskRecorded made d, WaiterRecorded made d

section
variable {made : Move → Prop} {d d' : Dispatch} {m : Move}

theorem recorded_start (job : Job) : Recorded (fun _ => False) { job := job } := by
  constructor <;> constructor <;> simp

theorem Recorded.step (h : Recorded made d) (hm : Steps d m d') :
    Recorded (fun x => made x ∨ x = m) d' :=
  ⟨h.toTaskRecorded.step hm, h.toWaiterRecorded.step hm⟩

theorem Recorded.isEnded (h : Recorded made d) {outcome : Outcome}
    (hanswer : d.waiter = .answered outcome) : d.IsEnded := by
  obtain ⟨result, hended, -⟩ := h.answered outcome hanswer
  exact ⟨⟨outcome, hanswer⟩, result, hended⟩

theorem Recorded.ok_iff (h : Recorded made d) {outcome : Outcome}
    (hanswer : d.waiter = .answered outcome) :
    outcome = .ok () ↔ made (.finish .done) ∨ made (.finish .rows) := by
  obtain ⟨result, hended, hiff⟩ := h.answered outcome hanswer
  rw [hiff]
  constructor
  · rintro rfl
    obtain ⟨executed, hmade, hresult⟩ := h.ended _ hended
    cases executed with
    | done => exact .inl hmade
    | rows => exact .inr hmade
    | failed => cases hresult
  · intro hmade
    have hok : d.task = .ended (some (.ok ())) :=
      hmade.elim (h.finished _) (h.finished _)
    rw [hended] at hok
    exact Task.ended.inj hok

theorem Recorded.skipped_or_finished (h : Recorded made d) (hended : d.IsEnded) :
    made .skip ∨ ∃ executed, made (.finish executed) := by
  obtain ⟨result, htask⟩ := hended.task
  cases result with
  | none => exact .inl (h.skipped htask)
  | some result =>
    obtain ⟨executed, hmade, -⟩ := h.ended result htask
    exact .inr ⟨executed, hmade⟩

theorem Recorded.unrun (h : Recorded made d) (hobtain : ¬made .obtain) :
    (d.task = .absent ∨ d.task = .queued) ∧ ¬made .begin ∧
      ∀ executed, ¬made (.finish executed) := by
  have htask : d.task = .absent ∨ d.task = .queued := by
    simpa [hobtain] using h.obtained
  refine ⟨htask, fun hbegin => ?_, fun executed hfinish => ?_⟩
  · have hrun := h.begun hbegin
    rcases htask with htask | htask <;> simp [htask] at hrun
  · have hended := h.finished executed hfinish
    rcases htask with htask | htask <;> simp [htask] at hended

theorem Recorded.isDoomed (h : Recorded made d) (hobtain : ¬made .obtain)
    (hm : Steps d .flag d') : d'.IsDoomed := by
  have htask := (h.unrun hobtain).1
  cases hm
  refine ⟨rfl, ?_, by simp⟩
  exact htask.imp_right .inl

theorem Recorded.isEnded_of_turn (h : Recorded made d) (hturn : made .takeTurn)
    (hkept : ¬made .abandon) (hback : d.hasTurn = false) : d.IsEnded := by
  cases hwaiter : d.waiter with
  | queued => exact absurd hwaiter (h.turn hturn)
  | dropped => exact absurd (h.kept hwaiter) hkept
  | answered outcome => exact h.isEnded hwaiter
  | waiting | expired | flagged | awaiting => simp [hasTurn, hwaiter] at hback

end

end SqlBatch.Session.Sqlite.Dispatch
