import Mathlib.Data.List.Induction
import SqlBatch.Proofs.List
import SqlBatch.Proofs.Session.Sqlite.Moves
import SqlBatch.Session.Sqlite

/-! Every run of statements on one SQLite connection, whatever the order in which their parties make
their moves. A property of one statement that its own moves keep holds until the end of the run, and
what all moves keep holds of all statements; so what is on record about a statement tells how it was
answered, and a statement that is answered or doomed stays so. -/

namespace SqlBatch.Session.Sqlite

open Run

/-! ### Whole runs -/

section
variable {ds ds' : List Dispatch} {i j : Nat} {m : Move} {trace front behind : List (Nat × Move)}

theorem exists_steps (h : move? ds i m = some ds') :
    ∃ d d', ds[i]? = some d ∧ ds'[i]? = some d' ∧ d.Steps m d' ∧ ds' = ds.set i d' := by
  unfold move? at h
  split at h
  · rename_i d hd
    split at h
    · obtain ⟨d', hd', rfl⟩ := Option.map_eq_some_iff.mp h
      refine ⟨d, d', hd, ?_, Dispatch.steps_of_move? hd', rfl⟩
      rw [List.getElem?_set_self', hd]
      rfl
    · cases h
  · cases h

theorem isFree_of_move? (h : move? ds i m = some ds') : m.isFree ds = true := by
  unfold move? at h
  split at h
  · split at h
    · assumption
    · cases h
  · cases h

theorem getElem?_of_move? (h : move? ds j m = some ds') (hj : j ≠ i) : ds'[i]? = ds[i]? := by
  obtain ⟨d, d', -, -, -, rfl⟩ := exists_steps h
  exact List.getElem?_set_ne hj

theorem isFree_takeTurn : Move.takeTurn.isFree ds = true ↔ ∀ d ∈ ds, d.hasTurn = false := by
  simp [Move.isFree]

theorem isFree_obtain : Move.obtain.isFree ds = true ↔ ∀ d ∈ ds, d.hasConnection = false := by
  simp [Move.isFree]

theorem exists_of_moves?_cons (h : moves? ds ((i, m) :: trace) = some ds') :
    ∃ between, move? ds i m = some between ∧ moves? between trace = some ds' :=
  Option.bind_eq_some_iff.mp h

theorem exists_of_moves?_append (h : moves? ds (front ++ behind) = some ds') :
    ∃ between, moves? ds front = some between ∧ moves? between behind = some ds' := by
  rw [moves?, List.foldlM_append] at h
  exact Option.bind_eq_some_iff.mp h

theorem moves?_keep {P : Dispatch → Prop}
    (hkeep : ∀ {d m d'}, P d → Dispatch.Steps d m d' → P d')
    (h : moves? ds trace = some ds') {d : Dispatch} (hd : ds[i]? = some d) (hP : P d) :
    (∃ d', ds'[i]? = some d' ∧ P d') ∧
      ∀ m, (i, m) ∈ trace → ∃ d d', P d ∧ Dispatch.Steps d m d' := by
  induction trace generalizing ds d with
  | nil =>
    cases h
    exact ⟨⟨d, hd, hP⟩, fun m hmem => nomatch hmem⟩
  | cons next trace ih =>
    obtain ⟨j, n⟩ := next
    obtain ⟨between, hmove, htrace⟩ := exists_of_moves?_cons h
    by_cases hj : j = i
    · subst hj
      obtain ⟨e, d', he, hd', hsteps, -⟩ := exists_steps hmove
      obtain rfl : d = e := Option.some.inj (hd.symm.trans he)
      obtain ⟨hend, hmoves⟩ := ih htrace hd' (hkeep hP hsteps)
      refine ⟨hend, fun m hmem => ?_⟩
      rcases List.mem_cons.mp hmem with hhead | htail
      · cases hhead
        exact ⟨d, d', hP, hsteps⟩
      · exact hmoves m htail
    · have hd' : between[i]? = some d := (getElem?_of_move? hmove hj).trans hd
      obtain ⟨hend, hmoves⟩ := ih htrace hd' hP
      refine ⟨hend, fun m hmem => ?_⟩
      rcases List.mem_cons.mp hmem with hhead | htail
      · exact absurd (congrArg Prod.fst hhead).symm hj
      · exact hmoves m htail

theorem notMem_of_isEnded (h : moves? ds trace = some ds') {d : Dispatch} (hd : ds[i]? = some d)
    (hended : d.IsEnded) (m : Move) : (i, m) ∉ trace := by
  intro hmem
  obtain ⟨d, d', hP, hm⟩ :=
    (moves?_keep (fun hP hm => absurd hm hP.not_steps) h hd hended).2 m hmem
  exact hP.not_steps hm

end

/-! ### Statements handed over to a connection -/

section
variable {jobs : List Job} {trace : List (Nat × Move)} {ds : List Dispatch}

theorem moves?_induction {P : List (Nat × Move) → List Dispatch → Prop}
    (start : P [] (handedOver jobs))
    (step : ∀ {trace ds i m ds'}, P trace ds → move? ds i m = some ds' → P (trace ++ [(i, m)]) ds')
    (h : moves? (handedOver jobs) trace = some ds) : P trace ds := by
  induction trace using List.reverseRecOn generalizing ds with
  | nil =>
    cases h
    exact start
  | append_singleton trace next ih =>
    obtain ⟨between, htrace, hnext⟩ := exists_of_moves?_append h
    obtain ⟨_, hmove, hnil⟩ := exists_of_moves?_cons hnext
    cases hnil
    exact step (ih htrace) hmove

theorem exists_of_handedOver {i : Nat} {d : Dispatch} (h : (handedOver jobs)[i]? = some d) :
    ∃ job, jobs[i]? = some job ∧ { job := job } = d := by
  simpa [handedOver] using h

/-- The statements are still there, and each has its moves on record. -/
structure OnRecord (jobs : List Job) (trace : List (Nat × Move)) (ds : List Dispatch) : Prop where
  jobs_eq : ds.map Dispatch.job = jobs
  recorded : ∀ {i : Nat} {d : Dispatch}, ds[i]? = some d → d.Recorded fun m => (i, m) ∈ trace

theorem onRecord_handedOver (jobs : List Job) : OnRecord jobs [] (handedOver jobs) := by
  constructor
  · rw [handedOver, List.map_map]
    exact List.map_id jobs
  · intro i d hd
    obtain ⟨job, -, rfl⟩ := exists_of_handedOver hd
    simpa using Dispatch.recorded_start job

theorem OnRecord.step (h : OnRecord jobs trace ds) {j : Nat} {n : Move} {ds' : List Dispatch}
    (hmove : move? ds j n = some ds') : OnRecord jobs (trace ++ [(j, n)]) ds' := by
  obtain ⟨e, e', he, he', hsteps, hds'⟩ := exists_steps hmove
  constructor
  · rw [hds', map_set_of_eq he hsteps.job_eq, h.jobs_eq]
  · intro i d hd
    by_cases hj : j = i
    · subst hj
      obtain rfl : e' = d := Option.some.inj (he'.symm.trans hd)
      simpa using (h.recorded he).step hsteps
    · rw [getElem?_of_move? hmove hj] at hd
      have hother (m : Move) : (i, m) ∈ trace ++ [(j, n)] ↔ (i, m) ∈ trace := by
        simp [Ne.symm hj]
      simpa only [hother] using h.recorded hd

theorem onRecord (h : moves? (handedOver jobs) trace = some ds) : OnRecord jobs trace ds :=
  moves?_induction (onRecord_handedOver jobs) (fun hrecord hmove => hrecord.step hmove) h

theorem OnRecord.exists_dispatch (h : OnRecord jobs trace ds) {i : Nat} {job : Job}
    (hjob : jobs[i]? = some job) : ∃ d, ds[i]? = some d ∧ d.job = job := by
  rw [← h.jobs_eq] at hjob
  simpa using hjob

def Exclusive (ds : List Dispatch) : Prop :=
  ∀ {i j : Nat} {d e : Dispatch}, ds[i]? = some d → ds[j]? = some e →
    d.hasConnection = true → e.hasConnection = true → i = j

theorem exclusive_handedOver (jobs : List Job) : Exclusive (handedOver jobs) := by
  intro i j d e hd _ hhas
  obtain ⟨job, -, rfl⟩ := exists_of_handedOver hd
  cases hhas

theorem Exclusive.step (h : Exclusive ds) {k : Nat} {n : Move} {ds' : List Dispatch}
    (hmove : move? ds k n = some ds') : Exclusive ds' := by
  obtain ⟨a, a', ha, ha', hsteps, -⟩ := exists_steps hmove
  -- whoever else has the connection had it before, when it was not free
  have hother {j : Nat} {e : Dispatch} (hj : k ≠ j) (he : ds'[j]? = some e)
      (hahas : a'.hasConnection = true) (hehas : e.hasConnection = true) : False := by
    rw [getElem?_of_move? hmove hj] at he
    rcases hsteps.hadConnection hahas with rfl | hhad
    · have hnone := isFree_obtain.mp (isFree_of_move? hmove)
      rw [hnone e (List.mem_of_getElem? he)] at hehas
      cases hehas
    · exact hj (h ha he hhad hehas)
  intro i j d e hd he hdhas hehas
  by_cases hi : k = i
  · by_cases hj : k = j
    · exact hi.symm.trans hj
    · subst hi
      obtain rfl : a' = d := Option.some.inj (ha'.symm.trans hd)
      exact (hother hj he hdhas hehas).elim
  · by_cases hj : k = j
    · subst hj
      obtain rfl : a' = e := Option.some.inj (ha'.symm.trans he)
      exact (hother hi hd hehas hdhas).elim
    · rw [getElem?_of_move? hmove hi] at hd
      rw [getElem?_of_move? hmove hj] at he
      exact h hd he hdhas hehas

theorem exclusive (h : moves? (handedOver jobs) trace = some ds) : Exclusive ds :=
  moves?_induction (P := fun _ ds => Exclusive ds) (exclusive_handedOver jobs)
    (fun hexclusive hmove => hexclusive.step hmove) h

end

/-! ### Runs come to an end -/

def movesLeft (ds : List Dispatch) : Nat := (ds.map Dispatch.movesLeft).sum

theorem length_add_movesLeft_le {ds ds' : List Dispatch} {trace : List (Nat × Move)}
    (h : moves? ds trace = some ds') : trace.length + movesLeft ds' ≤ movesLeft ds := by
  induction trace generalizing ds with
  | nil =>
    cases h
    simp
  | cons next trace ih =>
    obtain ⟨between, hmove, htrace⟩ := exists_of_moves?_cons h
    obtain ⟨d, d', hd, -, hsteps, rfl⟩ := exists_steps hmove
    have hlt : movesLeft (ds.set next.1 d') < movesLeft ds := sum_map_set_lt hd hsteps.movesLeft_lt
    have hle := ih htrace
    rw [List.length_cons]
    omega

theorem movesLeft_handedOver (jobs : List Job) : movesLeft (handedOver jobs) = 8 * jobs.length := by
  rw [movesLeft, handedOver, List.map_map]
  exact sum_map_const jobs 8

/-! ### Runs do not stop short of an answer -/

def IsOver (ds : List Dispatch) : Prop := ∀ i m, move? ds i m = none

section
variable {ds : List Dispatch} {i : Nat} {d : Dispatch} {m : Move}

theorem isOver_of_isEnded (h : ∀ d ∈ ds, d.IsEnded) : IsOver ds := by
  intro i m
  rw [Option.eq_none_iff_forall_ne_some]
  intro ds' hmove
  obtain ⟨d, d', hd, -, hsteps, -⟩ := exists_steps hmove
  exact (h d (List.mem_of_getElem? hd)).not_steps hsteps

theorem IsOver.not_moves (h : IsOver ds) (hd : ds[i]? = some d) (hfree : m.isFree ds = true) :
    d.move? m = none := by
  simpa [move?, hd, hfree] using h i m

theorem IsOver.not_hasConnection (h : IsOver ds) (hd : ds[i]? = some d) :
    d.hasConnection = false := by
  obtain ⟨job, waiter, task, flagged⟩ := d
  cases task with
  | absent | queued | ended => rfl
  | holding =>
    cases flagged with
    | false => cases h.not_moves (m := .begin) hd rfl
    | true => cases h.not_moves (m := .skip) hd rfl
  | running => cases h.not_moves (m := .finish .done) hd rfl

theorem IsOver.not_queued (h : IsOver ds) (hd : ds[i]? = some d) : d.task ≠ .queued := by
  intro hqueued
  have hfree : Move.obtain.isFree ds = true := by
    refine isFree_obtain.mpr fun e he => ?_
    obtain ⟨j, hj⟩ := List.getElem?_of_mem he
    exact h.not_hasConnection hj
  have hmove := h.not_moves hd hfree
  simp [Dispatch.move?, hqueued] at hmove

theorem IsOver.not_hasTurn (h : IsOver ds) (hd : ds[i]? = some d) (hstarted : d.task ≠ .absent) :
    d.hasTurn = false := by
  have hconnection := h.not_hasConnection hd
  have hqueued := h.not_queued hd
  obtain ⟨job, waiter, task, flagged⟩ := d
  cases waiter with
  | queued | answered | dropped => rfl
  | waiting => cases h.not_moves (m := .expire) hd rfl
  | expired => cases h.not_moves (m := .flag) hd rfl
  | flagged => cases h.not_moves (m := .interrupt) hd rfl
  | awaiting =>
    cases task with
    | absent => exact absurd rfl hstarted
    | queued => exact absurd rfl hqueued
    | holding | running => cases hconnection
    | ended => cases h.not_moves (m := .join) hd rfl

theorem IsOver.exists_answered {jobs : List Job} {trace : List (Nat × Move)} (h : IsOver ds)
    (hrecord : OnRecord jobs trace ds) (hkept : (i, Move.abandon) ∉ trace)
    (hd : ds[i]? = some d) : ∃ outcome, d.waiter = .answered outcome := by
  have hback {j : Nat} {e : Dispatch} (he : ds[j]? = some e) : e.hasTurn = false := by
    by_cases habsent : e.task = .absent
    · rcases (hrecord.recorded he).absent habsent with hqueued | hdropped
      · simp [Dispatch.hasTurn, hqueued]
      · simp [Dispatch.hasTurn, hdropped]
    · exact h.not_hasTurn he habsent
  have hfree : Move.takeTurn.isFree ds = true := by
    refine isFree_takeTurn.mpr fun e he => ?_
    obtain ⟨j, hj⟩ := List.getElem?_of_mem he
    exact hback hj
  cases hwaiter : d.waiter with
  | queued =>
    have hmove := h.not_moves hd hfree
    simp [Dispatch.move?, hwaiter, (hrecord.recorded hd).queued hwaiter] at hmove
  | dropped => exact absurd ((hrecord.recorded hd).kept hwaiter) hkept
  | answered outcome => exact ⟨outcome, rfl⟩
  | waiting | expired | flagged | awaiting =>
    have hturn := hback hd
    simp [Dispatch.hasTurn, hwaiter] at hturn

end

theorem close_of_isEnded {ds : List Dispatch} (h : ∀ d ∈ ds, d.IsEnded) :
    close ds = [.log .closingSqlite] := by
  have hidle : ds.any Dispatch.isAtWork = false := by
    refine List.any_eq_false.mpr fun d hd => ?_
    obtain ⟨result, htask⟩ := (h d hd).task
    simp [Dispatch.isAtWork, htask]
  simp [close, hidle]

/-- What a session answers is the answer of a run of the statement alone, up to its end; it leaves
no hold on the connection. -/
theorem exists_run (job : Job) :
    ∃ ds, moves? (handedOver [job]) ((courseOf (judge job.sql)).map fun m => (0, m)) = some ds ∧
      IsOver ds ∧ answer? ds 0 = some (run job).2.1 ∧ (run job).2.2 = ds ∧
      close ds = [.log .closingSqlite] := by
  unfold run
  cases judge job.sql with
  | succeeds | neverEnds | rejected detail =>
    have hended {d : Dispatch} (h : d.IsEnded) : ∀ e ∈ [d], e.IsEnded :=
      List.forall_mem_singleton.mpr h
    refine ⟨_, rfl, isOver_of_isEnded (hended ?_), rfl, rfl, close_of_isEnded (hended ?_)⟩
    all_goals exact ⟨⟨_, rfl⟩, _, rfl⟩

/-! ### What a statement comes to -/

theorem answer?_eq_some {ds : List Dispatch} {i : Nat} {outcome : Outcome} :
    answer? ds i = some outcome ↔ ∃ d, ds[i]? = some d ∧ d.waiter = .answered outcome := by
  unfold answer?
  split
  · rename_i hd
    simp [hd]
  · rename_i hnone
    simp only [reduceCtorEq, false_iff]
    rintro ⟨⟨job, waiter, task, flagged⟩, hd, rfl⟩
    exact hnone _ _ _ _ hd

section
variable {jobs : List Job} {front behind : List (Nat × Move)} {ds : List Dispatch} {i : Nat}

theorem isDoomed_of_flag (h : moves? (handedOver jobs) (front ++ (i, .flag) :: behind) = some ds)
    (hobtain : (i, Move.obtain) ∉ front) :
    (∃ d, ds[i]? = some d ∧ d.IsDoomed) ∧ (i, Move.begin) ∉ front ++ (i, .flag) :: behind ∧
      ∀ executed, (i, Move.finish executed) ∉ front ++ (i, .flag) :: behind := by
  obtain ⟨before, hfront, hrest⟩ := exists_of_moves?_append h
  obtain ⟨flagged, hflag, hbehind⟩ := exists_of_moves?_cons hrest
  obtain ⟨e, e', he, he', hsteps, -⟩ := exists_steps hflag
  have hearly := (onRecord hfront).recorded he
  obtain ⟨hdoomed, hmoves⟩ := moves?_keep (fun hP hm => hP.step hm) hbehind he'
    (hearly.isDoomed hobtain hsteps)
  obtain ⟨-, hbegin, hfinish⟩ := hearly.unrun hobtain
  have hlater {m : Move} (hmem : (i, m) ∈ behind) :
      m ≠ .begin ∧ ∀ executed, m ≠ .finish executed := by
    obtain ⟨x, x', hx, hm⟩ := hmoves m hmem
    exact hx.not_runs hm
  refine ⟨hdoomed, ?_, fun executed => ?_⟩
  · simpa [hbegin] using fun hmem => (hlater hmem).1 rfl
  · simpa [hfinish] using fun hmem => (hlater hmem).2 executed rfl

theorem ended_of_answer (h : moves? (handedOver jobs) (front ++ behind) = some ds)
    {between : List Dispatch} (hfront : moves? (handedOver jobs) front = some between)
    {outcome : Outcome} (houtcome : answer? between i = some outcome) :
    ((i, Move.skip) ∈ front ∨ ∃ executed, (i, Move.finish executed) ∈ front) ∧
      ∀ m, (i, m) ∉ behind := by
  obtain ⟨_, hfront', hbehind⟩ := exists_of_moves?_append h
  obtain rfl := Option.some.inj (hfront.symm.trans hfront')
  obtain ⟨d, hd, hanswer⟩ := answer?_eq_some.mp houtcome
  have hrecorded := (onRecord hfront).recorded hd
  have hended := hrecorded.isEnded hanswer
  exact ⟨hrecorded.skipped_or_finished hended, notMem_of_isEnded hbehind hd hended⟩

theorem notMem_of_takeTurn {j : Nat}
    (h : moves? (handedOver jobs) (front ++ (j, .takeTurn) :: behind) = some ds)
    (hturn : (i, Move.takeTurn) ∈ front) (hkept : (i, Move.abandon) ∉ front) (hj : j ≠ i)
    {job : Job} (hjob : jobs[i]? = some job) (m : Move) : (i, m) ∉ behind := by
  obtain ⟨before, hfront, hrest⟩ := exists_of_moves?_append h
  obtain ⟨taken, htake, hbehind⟩ := exists_of_moves?_cons hrest
  obtain ⟨d, hd, -⟩ := (onRecord hfront).exists_dispatch hjob
  have hback : d.hasTurn = false :=
    isFree_takeTurn.mp (isFree_of_move? htake) d (List.mem_of_getElem? hd)
  have hended := ((onRecord hfront).recorded hd).isEnded_of_turn hturn hkept hback
  have hd' : taken[i]? = some d := (getElem?_of_move? htake hj).trans hd
  exact notMem_of_isEnded hbehind hd' hended m

end

/-- What becomes of the statement at place `i` in a run that ends with `ds`. -/
structure Settles (jobs : List Job) (trace : List (Nat × Move)) (ds : List Dispatch)
    (i : Nat) (job : Job) : Prop where
  ok_iff : ∀ outcome, answer? ds i = some outcome →
    (outcome = .ok () ↔ (i, .finish .done) ∈ trace ∨ (i, .finish .rows) ∈ trace)
  skipped : ∀ front behind, trace = front ++ (i, .flag) :: behind → (i, .obtain) ∉ front →
    (i, .begin) ∉ trace ∧ (∀ executed, (i, .finish executed) ∉ trace) ∧
      ∀ outcome, answer? ds i = some outcome → outcome = .error (.timeout job.bound)
  ended : ∀ front behind between outcome, trace = front ++ behind →
    moves? (handedOver jobs) front = some between → answer? between i = some outcome →
    ((i, .skip) ∈ front ∨ ∃ executed, (i, .finish executed) ∈ front) ∧ ∀ m, (i, m) ∉ behind
  alone : ∀ d j other, ds[i]? = some d → ds[j]? = some other →
    d.task = .running → other.task = .running → j = i
  beforeNext : ∀ front behind j, trace = front ++ (j, .takeTurn) :: behind →
    (i, .takeTurn) ∈ front → j ≠ i → ∀ m, (i, m) ∉ behind
  bounded : trace.length ≤ 8 * jobs.length
  answered : IsOver ds → ∃ outcome, answer? ds i = some outcome

/-- A statement that is not dropped is answered with what it has come to, and has no effect later:
for all statements and bounds, and for every order of the moves of all parties. -/
theorem moves?_settles {jobs : List Job} {trace : List (Nat × Move)} {ds : List Dispatch}
    (h : moves? (handedOver jobs) trace = some ds) {i : Nat} {job : Job}
    (hjob : jobs[i]? = some job) (hkept : (i, Move.abandon) ∉ trace) :
    Settles jobs trace ds i job := by
  have hrecord := onRecord h
  obtain ⟨d, hd, rfl⟩ := hrecord.exists_dispatch hjob
  constructor
  case ok_iff =>
    intro outcome houtcome
    obtain ⟨e, he, hanswer⟩ := answer?_eq_some.mp houtcome
    exact (hrecord.recorded he).ok_iff hanswer
  case skipped =>
    rintro front behind rfl hobtain
    obtain ⟨⟨e, he, hdoomed⟩, hbegin, hfinish⟩ := isDoomed_of_flag h hobtain
    refine ⟨hbegin, hfinish, fun outcome houtcome => ?_⟩
    obtain rfl := Option.some.inj (hd.symm.trans he)
    obtain ⟨x, hx, hanswer⟩ := answer?_eq_some.mp houtcome
    obtain rfl := Option.some.inj (hd.symm.trans hx)
    exact hdoomed.answer outcome hanswer
  case ended =>
    rintro front behind between outcome rfl hfront houtcome
    exact ended_of_answer h hfront houtcome
  case beforeNext =>
    rintro front behind j rfl hturn hj
    have hkept' : (i, Move.abandon) ∉ front := fun hmem => hkept (List.mem_append_left _ hmem)
    exact notMem_of_takeTurn h hturn hkept' hj hjob
  case alone =>
    intro e j other he hother hruns hruns'
    have hhas : e.hasConnection = true := by simp [Dispatch.hasConnection, hruns]
    have hhas' : other.hasConnection = true := by simp [Dispatch.hasConnection, hruns']
    exact exclusive h hother he hhas' hhas
  case bounded =>
    have hle := length_add_movesLeft_le h
    rw [movesLeft_handedOver] at hle
    omega
  case answered =>
    intro hover
    obtain ⟨outcome, hanswer⟩ := hover.exists_answered hrecord hkept hd
    exact ⟨outcome, answer?_eq_some.mpr ⟨d, hd, hanswer⟩⟩

def twoInserts : List Job :=
  [⟨0, "INSERT INTO t VALUES (1)", .ofSeconds 5⟩, ⟨1, "INSERT INTO t VALUES (2)", .ofSeconds 5⟩]

/-- The bound of the first statement passes before its task has the connection, and that of the
second one just when it ends. -/
def passedBounds : List (Nat × Move) :=
  [(0, .takeTurn), (0, .expire), (0, .flag), (0, .obtain), (0, .interrupt), (0, .skip), (0, .join),
    (1, .takeTurn), (1, .obtain), (1, .begin), (1, .expire), (1, .finish .done), (1, .flag),
    (1, .interrupt), (1, .join)]

theorem moves?_settles_twoInserts :
    ∃ ds, moves? (handedOver twoInserts) passedBounds = some ds ∧
      (0, Move.abandon) ∉ passedBounds ∧
      Settles twoInserts passedBounds ds 0 ⟨0, "INSERT INTO t VALUES (1)", .ofSeconds 5⟩ ∧
      answer? ds 0 = some (.error (.timeout (.ofSeconds 5))) ∧ answer? ds 1 = some (.ok ()) := by
  refine ⟨_, rfl, by decide, ?_, rfl, rfl⟩
  exact moves?_settles rfl rfl (by decide)

end SqlBatch.Session.Sqlite
