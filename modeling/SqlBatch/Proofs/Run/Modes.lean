import SqlBatch.Proofs.Run.Outcome
import SqlBatch.Proofs.Session.Virtual

/-! What a forced run reports, and serial and concurrent runs side by side. A forced run returns a
report that has each failed statement in its place, whatever the order of the answers; and where
what becomes of a job is a function of the job, the two modes return the same reports. -/

namespace SqlBatch.Run

theorem failure?_eq_some {index : Nat} {o : Outcome} {f : StatementFailure} :
    failure? index o = some f ↔ index = f.index ∧ ∃ e, o = .error e ∧ e.message = f.message := by
  obtain ⟨place, message⟩ := f
  cases o <;> simp [failure?]

theorem failure?_eq_none {index : Nat} {o : Outcome} : failure? index o = none ↔ o = .ok () := by
  cases o <;> simp [failure?]

theorem errorText?_eq_none {o : Outcome} : errorText? o = none ↔ o = .ok () := by
  cases o <;> simp [errorText?]

section
variable {outcome : Job → Outcome} {p : Policy} {x : Statement}

theorem fate_eq_error {f : Failure} : fate outcome p x = .error f ↔
    x.isEmpty = false ∧ outcome (Course.jobOf p x) = .error f := by
  cases hx : x.isEmpty <;> simp [fate, hx]

theorem fate_eq_ok : fate outcome p x = .ok () ↔
    (x.isEmpty = false → outcome (Course.jobOf p x) = .ok ()) := by
  cases hx : x.isEmpty <;> simp [fate, hx]

end

namespace Report.complete
variable (file : String) (switch : Outcome) (outcomes : Statement → Outcome)
  (statements : List Statement)

theorem succeeded_add_length : (complete file switch outcomes statements).succeeded +
    (complete file switch outcomes statements).failures.length = statements.length :=
  Nat.sub_add_cancel (List.length_filterMap_le _ _)

theorem mem_failures (f : StatementFailure) :
    f ∈ (complete file switch outcomes statements).failures ↔ ∃ x ∈ statements,
      x.index = f.index ∧ ∃ e, outcomes x = .error e ∧ e.message = f.message := by
  simp only [complete, List.mem_filterMap, failure?_eq_some]

theorem allSucceeded_iff : (complete file switch outcomes statements).allSucceeded = true ↔
    (∀ x ∈ statements, outcomes x = .ok ()) ∧ switch = .ok () := by
  simp only [allSucceeded, complete, Bool.and_eq_true, List.isEmpty_iff, Option.isNone_iff_eq_none,
    List.filterMap_eq_nil_iff, failure?_eq_none, errorText?_eq_none]

end Report.complete

/-- Statements that wake in another order than theirs, with a blank one and one that is slow. -/
def naps : List Statement :=
  [⟨1, "SLEEP 30 FAIL", ";"⟩, ⟨2, "", ";"⟩, ⟨4, "SLEEP 20", ";"⟩, ⟨5, "SLEEP 60", ";"⟩,
    ⟨7, "FAIL", ";"⟩]

def hasty : Policy :=
  { force := true, mode := .concurrent, database := some "shop", timeout := .ofMilliseconds 50 }

section
variable {σ : Type} {s : Session σ} {outcome : Job → Outcome} {owes : σ → Multiset Job → Prop}

theorem Session.Answers.afterSwitch (hs : s.Answers outcome owes) (p : Policy) {st : σ}
    (hidle : owes st 0) : owes (afterSwitch s p st) 0 := by
  unfold Run.afterSwitch
  cases switchJob? s p st with
  | none => exact hidle
  | some job => exact (hs.ask hidle job).2

/-- A forced run takes every statement into account, once, under its own index, and in source order,
whatever the mode and the order of the answers. -/
theorem execute_force_accounts (hs : s.Answers outcome owes) {p : Policy} (hforce : p.force = true)
    (file : String) {statements : List Statement}
    (hincreasing : statements.Pairwise (·.index < ·.index)) {st : σ}
    (hidle : owes (afterSwitch s p st) 0) :
    ∃ r, (execute s p file statements st).result = .ok r ∧
      r.attempted = statements.length ∧
      r.succeeded + r.failures.length = r.attempted ∧
      r.failures.Pairwise (·.index < ·.index) ∧
      (∀ index message, ⟨index, message⟩ ∈ r.failures ↔ ∃ x ∈ statements, x.index = index ∧
        x.isEmpty = false ∧
        ∃ f, outcome (Course.jobOf p x) = .error f ∧ f.message = message) ∧
      (r.allSucceeded = true ↔
        (∀ x ∈ statements, x.isEmpty = false → outcome (Course.jobOf p x) = .ok ()) ∧
        switchOutcome s p st = .ok ()) ∧
      ∀ (τ : Type) (s' : Session τ) (owes' : τ → Multiset Job → Prop) (mode : Mode) (st' : τ),
        s'.Answers outcome owes' → owes' (afterSwitch s' p st') 0 →
        switchOutcome s' p st' = switchOutcome s p st →
        (execute s' { p with mode := mode } file statements st').result = .ok r := by
  have htolerates : ∀ o, p.Tolerates o := fun _ => Or.inl hforce
  refine ⟨Report.complete file (switchOutcome s p st) (fate outcome p) statements, ?_, rfl,
    Report.complete.succeeded_add_length .., pairwise_filterMap_failure? hincreasing _, ?_, ?_, ?_⟩
  · exact (result_execute hs hincreasing hidle file _).2
      ⟨htolerates _, fun _ _ => htolerates _, rfl⟩
  · intro index message
    rw [Report.complete.mem_failures]
    simp only [fate_eq_error, and_assoc, exists_and_left]
  · rw [Report.complete.allSucceeded_iff]
    simp only [fate_eq_ok]
  · intro τ s' owes' mode st' hs' hidle' hswitch
    refine (result_execute (p := { p with mode := mode }) hs' hincreasing hidle' file _).2
      ⟨htolerates _, fun _ _ => htolerates _, ?_⟩
    rw [← hswitch]
    rfl

theorem execute_force_accounts_naps :
    naps.Pairwise (·.index < ·.index) ∧
    ∃ r, (execute Session.Virtual.session hasty "a.sql" naps { backend := .mysql }).result = .ok r ∧
      r.attempted = 5 ∧ r.succeeded + r.failures.length = 5 ∧
      ⟨7, "Connection error: mock rejected `FAIL`"⟩ ∈ r.failures ∧ r.allSucceeded = false := by
  have hincreasing : naps.Pairwise (·.index < ·.index) := by decide
  have hfail : Session.Virtual.outcome "FAIL" hasty.timeout =
      .error (.connection "mock rejected `FAIL`") := by rfl
  have hidle : Session.Virtual.Owes
      (afterSwitch Session.Virtual.session hasty { backend := .mysql }) 0 :=
    Session.Virtual.answers.afterSwitch _ rfl
  obtain ⟨r, hresult, hattempted, hcount, -, hfailures, hall, -⟩ :=
    execute_force_accounts Session.Virtual.answers (p := hasty) rfl "a.sql" hincreasing hidle
  refine ⟨hincreasing, r, hresult, hattempted, hcount.trans hattempted, ?_, ?_⟩
  · exact (hfailures _ _).2 ⟨⟨7, "FAIL", ";"⟩, by decide, rfl, by rfl, _, hfail, by rfl⟩
  · rw [Bool.eq_false_iff, Ne, hall]
    rintro ⟨hok, -⟩
    have hseven := hok ⟨7, "FAIL", ";"⟩ (by decide) rfl
    simp [Course.jobOf, hfail] at hseven

/-- Whatever a run returns as a report in one mode, it returns in the other, if what becomes of a
job depends on its text and its bound alone. -/
theorem execute_serial_concurrent {answer : String → Duration → Outcome}
    (hs : s.Answers (fun job => answer job.sql job.bound) owes) (p : Policy) (file : String)
    {statements : List Statement} (hincreasing : statements.Pairwise (·.index < ·.index)) {st : σ}
    (hidle : owes st 0) :
    (p.force = true →
      ∃ r, (execute s { p with mode := .serial } file statements st).result = .ok r ∧
        (execute s { p with mode := .concurrent } file statements st).result = .ok r) ∧
    ∀ r, (execute s { p with mode := .serial } file statements st).result = .ok r ↔
      (execute s { p with mode := .concurrent } file statements st).result = .ok r := by
  have hserial := result_execute (p := { p with mode := .serial }) hs hincreasing
    (hs.afterSwitch _ hidle) file
  have hconcurrent := result_execute (p := { p with mode := .concurrent }) hs hincreasing
    (hs.afterSwitch _ hidle) file
  -- both modes return the same function of the outcomes
  refine ⟨fun hforce => ?_, fun r => (hserial r).trans (hconcurrent r).symm⟩
  have htolerates : ∀ o, p.Tolerates o := fun _ => Or.inl hforce
  exact ⟨_, (hserial _).2 ⟨htolerates _, fun _ _ => htolerates _, rfl⟩,
    (hconcurrent _).2 ⟨htolerates _, fun _ _ => htolerates _, rfl⟩⟩

theorem execute_serial_concurrent_naps :
    naps.Pairwise (·.index < ·.index) ∧ Session.Virtual.Owes { backend := .mysql } 0 ∧
    ∃ r, (execute Session.Virtual.session { hasty with mode := .serial } "a.sql" naps
        { backend := .mysql }).result = .ok r ∧
      (execute Session.Virtual.session { hasty with mode := .concurrent } "a.sql" naps
        { backend := .mysql }).result = .ok r := by
  have hincreasing : naps.Pairwise (·.index < ·.index) := by decide
  have hidle : Session.Virtual.Owes { backend := .mysql } 0 := rfl
  exact ⟨hincreasing, hidle,
    (execute_serial_concurrent Session.Virtual.answers hasty "a.sql" hincreasing hidle).1 rfl⟩

end
end SqlBatch.Run
