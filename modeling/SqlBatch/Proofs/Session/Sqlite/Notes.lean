import SqlBatch.Proofs.Session.Sqlite.Runs

/-! What a SQLite session tells along a run: of each statement that has succeeded although its bound
had passed, and of nothing else. -/

namespace SqlBatch.Session.Sqlite

open Run

namespace Dispatch

/-- What the one who waits says about the passing of the bound. -/
structure BoundRecorded (made : Move → Prop) (d : Dispatch) : Prop where
  inTime : d.waiter = .queued ∨ d.waiter = .waiting → ¬made .expire
  late : d.waiter = .expired ∨ d.waiter = .flagged ∨ d.waiter = .awaiting → made .expire

def Overran (made : Move → Prop) (d : Dispatch) : Prop :=
  made .expire ∧ d.waiter = .answered (.ok ())

variable {made : Move → Prop} {d d' : Dispatch} {m : Move}

theorem BoundRecorded.step (h : BoundRecorded made d) (hm : Steps d m d') :
    BoundRecorded (fun x => made x ∨ x = m) d' := by
  obtain ⟨hintime, hlate⟩ := h
  cases hm with
  | takeTurn | obtain | begin | skip | finish => constructor <;> simp_all
  | expire | flag | interrupt | joinInTime | joinLate
  | abandonQueued | abandonWaiting | abandonAwaiting => constructor <;> simp_all

theorem note?_eq_some {n : Note} : d.note? m = some n ↔
    m = .join ∧ d.waiter = .awaiting ∧ d.task = .ended (some (.ok ())) ∧
      n = .sqliteOverran d.job.bound := by
  obtain ⟨job, waiter, task, flagged⟩ := d
  unfold note?
  split
  · split <;> simp_all [eq_comm]
  · simp_all

theorem Steps.overran_iff (h : BoundRecorded made d) (hm : Steps d m d') :
    Overran (fun x => made x ∨ x = m) d' ↔
      Overran made d ∨ d.note? m = some (.sqliteOverran d.job.bound) := by
  obtain ⟨hintime, hlate⟩ := h
  simp only [note?_eq_some, and_true, Overran]
  cases hm with
  | joinLate => simp [hlate, answerLate_eq_ok]
  | joinInTime => simp [hintime]
  | takeTurn | obtain | begin | skip | finish => simp
  | expire | flag | interrupt | abandonQueued | abandonWaiting | abandonAwaiting => simp

end Dispatch

section
variable {ds ds' : List Dispatch} {i j : Nat} {m : Move} {trace : List (Nat × Move)} {n : Note}

theorem notes_concat (h : moves? ds trace = some ds') (i : Nat) (m : Move) :
    notes ds (trace ++ [(i, m)]) = notes ds trace ++ (ds'[i]?.bind (·.note? m)).toList := by
  induction trace generalizing ds with
  | nil =>
    cases h
    simp only [List.nil_append, notes]
    split <;> simp
  | cons next trace ih =>
    obtain ⟨j, m'⟩ := next
    obtain ⟨between, hmove, htrace⟩ := exists_of_moves?_cons h
    simp only [List.cons_append, notes, hmove, ih htrace, List.append_assoc]

/-- What has been told tells of the statements that have overrun their bound. -/
structure TellsOf (jobs : List Job) (trace : List (Nat × Move)) (ds : List Dispatch) : Prop where
  run : moves? (handedOver jobs) trace = some ds
  recorded : ∀ {i : Nat} {d : Dispatch}, ds[i]? = some d → d.BoundRecorded fun m => (i, m) ∈ trace
  notes_iff : ∀ {n : Note}, n ∈ notes (handedOver jobs) trace ↔ ∃ (i : Nat) (d : Dispatch),
    ds[i]? = some d ∧ d.Overran (fun m => (i, m) ∈ trace) ∧ n = .sqliteOverran d.job.bound

variable {jobs : List Job}

theorem tellsOf_handedOver (jobs : List Job) : TellsOf jobs [] (handedOver jobs) where
  run := rfl
  recorded := by
    intro i d hd
    obtain ⟨job, -, rfl⟩ := exists_of_handedOver hd
    constructor <;> simp
  notes_iff := by
    simp [notes, Dispatch.Overran]

theorem TellsOf.step (h : TellsOf jobs trace ds) (hmove : move? ds j m = some ds') :
    TellsOf jobs (trace ++ [(j, m)]) ds' := by
  obtain ⟨e, e', he, he', hsteps, -⟩ := exists_steps hmove
  have hrecorded := h.recorded he
  have hsame (m' : Move) : (j, m') ∈ trace ++ [(j, m)] ↔ (j, m') ∈ trace ∨ m' = m := by simp
  have hother {i : Nat} (hi : j ≠ i) (m' : Move) :
      (i, m') ∈ trace ++ [(j, m)] ↔ (i, m') ∈ trace := by
    simp [Ne.symm hi]
  constructor
  case run =>
    rw [moves?, List.foldlM_append, ← moves?, h.run]
    exact congrArg (·.bind some) hmove
  case recorded =>
    intro i d hd
    by_cases hi : j = i
    · subst hi
      obtain rfl : e' = d := Option.some.inj (he'.symm.trans hd)
      simpa only [hsame] using hrecorded.step hsteps
    · rw [getElem?_of_move? hmove hi] at hd
      simpa only [hother hi] using h.recorded hd
  case notes_iff =>
    intro n
    rw [notes_concat h.run, List.mem_append, h.notes_iff, he, Option.bind_some, Option.mem_toList]
    constructor
    · rintro (⟨i, d, hd, hoverran, rfl⟩ | hnote)
      · by_cases hi : j = i
        · subst hi
          obtain rfl : e = d := Option.some.inj (he.symm.trans hd)
          refine ⟨j, e', he', ?_, by rw [hsteps.job_eq]⟩
          simpa only [hsame] using (hsteps.overran_iff hrecorded).mpr (.inl hoverran)
        · refine ⟨i, d, (getElem?_of_move? hmove hi).trans hd, ?_, rfl⟩
          simpa only [hother hi] using hoverran
      · obtain ⟨-, -, -, rfl⟩ := Dispatch.note?_eq_some.mp hnote
        refine ⟨j, e', he', ?_, by rw [hsteps.job_eq]⟩
        simpa only [hsame] using (hsteps.overran_iff hrecorded).mpr (.inr hnote)
    · rintro ⟨i, d, hd, hoverran, rfl⟩
      by_cases hi : j = i
      · subst hi
        obtain rfl : e' = d := Option.some.inj (he'.symm.trans hd)
        simp only [hsame] at hoverran
        rw [hsteps.job_eq]
        exact ((hsteps.overran_iff hrecorded).mp hoverran).imp (⟨j, e, he, ·, rfl⟩) id
      · rw [getElem?_of_move? hmove hi] at hd
        simp only [hother hi] at hoverran
        exact .inl ⟨i, d, hd, hoverran, rfl⟩

/-- Told of are the statements that have succeeded although their bound had passed. -/
theorem mem_notes_iff (h : moves? (handedOver jobs) trace = some ds) :
    n ∈ notes (handedOver jobs) trace ↔ ∃ (i : Nat) (job : Job), jobs[i]? = some job ∧
      (i, Move.expire) ∈ trace ∧ answer? ds i = some (.ok ()) ∧ n = .sqliteOverran job.bound := by
  have htells : TellsOf jobs trace ds :=
    moves?_induction (tellsOf_handedOver jobs) (fun htells hmove => htells.step hmove) h
  rw [htells.notes_iff]
  constructor
  · rintro ⟨i, d, hd, ⟨hexpired, hanswer⟩, rfl⟩
    have hjob : jobs[i]? = some d.job := by
      rw [← (onRecord h).jobs_eq, List.getElem?_map, hd]
      rfl
    exact ⟨i, d.job, hjob, hexpired, answer?_eq_some.mpr ⟨d, hd, hanswer⟩, rfl⟩
  · rintro ⟨i, job, hjob, hexpired, hanswer, rfl⟩
    obtain ⟨d, hd, rfl⟩ := (onRecord h).exists_dispatch hjob
    obtain ⟨e, he, hwaiter⟩ := answer?_eq_some.mp hanswer
    obtain rfl : d = e := Option.some.inj (hd.symm.trans he)
    exact ⟨i, d, hd, ⟨hexpired, hwaiter⟩, rfl⟩

end

end SqlBatch.Session.Sqlite
