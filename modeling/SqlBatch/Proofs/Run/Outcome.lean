import SqlBatch.Proofs.Run.Accounting

/-! The result of a run on a session that answers every job once. A run returns a report exactly
when its policy tolerates the outcome of the database switch and of every statement; the report is
then a function of these outcomes. The mode and the order of the answers do not enter into it. -/

namespace SqlBatch.Run

section
variable {σ : Type} (s : Session σ) (p : Policy) (st : σ)

/-- The job of the database switch, if the policy names a database and the backend can switch. -/
def switchJob? : Option Job :=
  p.database.bind fun database =>
    ((s.backend st).useDatabase? database).map fun sql => ⟨0, sql, p.timeout⟩

def afterSwitch : σ :=
  match switchJob? s p st with
  | none => st
  | some job => (s.ask st job).session

def switchOutcome : Outcome :=
  match switchJob? s p st with
  | none => .ok ()
  | some job => (s.ask st job).outcome

end

def errorText? : Outcome → Option String
  | .ok () => none
  | .error f => some f.message

def Report.complete (file : String) (switch : Outcome) (outcomes : Statement → Outcome)
    (statements : List Statement) : Report :=
  let failures := statements.filterMap fun x => failure? x.index (outcomes x)
  { file := file
    attempted := statements.length
    succeeded := statements.length - failures.length
    failures := failures
    databaseError := errorText? switch }

theorem pairwise_filterMap_failure? {statements : List Statement}
    (h : statements.Pairwise (·.index < ·.index)) (outcomes : Statement → Outcome) :
    (statements.filterMap fun x => failure? x.index (outcomes x)).Pairwise
      (·.index < ·.index) := by
  have hindex : ∀ (x : Statement) (f : StatementFailure),
      failure? x.index (outcomes x) = some f → f.index = x.index := by
    intro x f hf
    cases hx : outcomes x <;> simp [failure?, hx] at hf
    rw [← hf]
  refine h.filterMap _ fun x y hlt f hf g hg => ?_
  rw [hindex x f hf, hindex y g hg]
  exact hlt

theorem mergeSort_eq_of_perm {fs gs : List StatementFailure} (hperm : fs.Perm gs)
    (hsorted : gs.Pairwise (·.index < ·.index)) :
    (fs.mergeSort fun a b => a.index ≤ b.index) = gs := by
  have hsort : (fs.mergeSort fun a b => a.index ≤ b.index).Perm gs :=
    (List.mergeSort_perm fs _).trans hperm
  have hpairwise : (fs.mergeSort fun a b => a.index ≤ b.index).Pairwise
      fun a b => decide (a.index ≤ b.index) = true := by
    refine List.pairwise_mergeSort (fun a b c hab hbc => ?_) (fun a b => ?_) fs
    · simp only [decide_eq_true_eq] at *
      omega
    · simp only [Bool.or_eq_true, decide_eq_true_eq]
      omega
  -- two sorted lists of one content are equal if `≤` is antisymmetric on it, as it is on places
  -- that are distinct
  have hdistinct : (gs.map StatementFailure.index).Nodup :=
    List.pairwise_map.2 (hsorted.imp Nat.ne_of_lt)
  refine hsort.eq_of_pairwise (fun a b ha hb hab hba => ?_) hpairwise
    (hsorted.imp fun hlt => by simpa using Nat.le_of_lt hlt)
  simp only [decide_eq_true_eq] at hab hba
  exact List.inj_on_of_nodup_map hdistinct (hsort.mem_iff.1 ha) hb (Nat.le_antisymm hab hba)

theorem Report.Tallies.sorted_eq {r : Report} {file : String} {switch : Outcome}
    {outcomes : Statement → Outcome} {statements : List Statement}
    (h : r.Tallies
      { file := file, attempted := statements.length, databaseError := errorText? switch }
      outcomes statements)
    (hincreasing : statements.Pairwise (·.index < ·.index)) :
    r.sorted = Report.complete file switch outcomes statements := by
  have hfailures := h.failures
  rw [Multiset.filterMap_coe, Multiset.coe_eq_coe] at hfailures
  have hcount := h.count
  rw [Multiset.coe_card, hfailures.length_eq] at hcount
  have hbase := h.base_eq
  rw [Report.mk.injEq] at hbase
  obtain ⟨hfile, hattempted, -, -, herror⟩ := hbase
  simp only [Report.sorted, Report.complete, Report.mk.injEq]
  exact ⟨hfile, hattempted, by omega,
    mergeSort_eq_of_perm hfailures (pairwise_filterMap_failure? hincreasing outcomes), herror⟩

theorem Report.databaseError_eq {r : Report} (h : r.databaseError = none) :
    r = { r with databaseError := none } := by
  rw [← h]

namespace Course
variable {σ : Type} {s : Session σ} {p : Policy} {c : Course σ}

theorem selectDatabase_cases (hended : c.ended = none) (herror : c.report.databaseError = none) :
    (¬p.Tolerates (switchOutcome s p c.session) ∧ (c.selectDatabase s p).ended.isSome = true) ∨
    (p.Tolerates (switchOutcome s p c.session) ∧ (c.selectDatabase s p).ended = none ∧
      (c.selectDatabase s p).session = afterSwitch s p c.session ∧
      (c.selectDatabase s p).report =
        { c.report with databaseError := errorText? (switchOutcome s p c.session) }) := by
  unfold selectDatabase switchOutcome afterSwitch switchJob?
  cases hdatabase : p.database with
  | none => exact Or.inr ⟨Or.inr rfl, hended, rfl, Report.databaseError_eq herror⟩
  | some database =>
    simp only [Option.bind_some]
    cases hsql : (s.backend c.session).useDatabase? database with
    | none => exact Or.inr ⟨Or.inr rfl, hended, rfl, Report.databaseError_eq herror⟩
    | some sql =>
      simp only [Option.map_some, ask, session_progress]
      -- a refused switch is kept in the report under force, and ends the run otherwise
      cases hanswer : (s.ask c.session ⟨0, sql, p.timeout⟩).outcome with
      | ok =>
        refine Or.inr ⟨Or.inr rfl, by simpa using hended, by simp, ?_⟩
        simpa [errorText?] using Report.databaseError_eq herror
      | error f =>
        cases hforce : p.force with
        | true => exact Or.inr ⟨Or.inl hforce, by simpa using hended, by simp, by simp [errorText?]⟩
        | false => exact Or.inl ⟨by simp [Policy.Tolerates, hforce], by simp⟩

theorem Stands.runStatements {outcome : Job → Outcome} {owes : σ → Multiset Job → Prop}
    {base : Report} (hs : s.Answers outcome owes) (file : String) (statements : List Statement)
    (h : Stands outcome owes p base 0 0 c) :
    Accounts outcome owes p (base.countAttempts statements.length) statements 0
      (c.runStatements s p file statements) := by
  unfold Course.runStatements
  cases p.mode with
  | serial =>
    have hserial := Accounts.serial hs file statements (Or.inr h)
    rwa [zero_add] at hserial
  | concurrent => exact h.concurrent hs file statements

end Course

section
variable {σ : Type} {s : Session σ} {outcome : Job → Outcome} {owes : σ → Multiset Job → Prop}
  {p : Policy} {st : σ} {statements : List Statement}

theorem result_execute (hs : s.Answers outcome owes)
    (hincreasing : statements.Pairwise (·.index < ·.index)) (hidle : owes (afterSwitch s p st) 0)
    (file : String) (r : Report) : (execute s p file statements st).result = .ok r ↔
      p.Tolerates (switchOutcome s p st) ∧ (∀ x ∈ statements, p.Tolerates (fate outcome p x)) ∧
        r = Report.complete file (switchOutcome s p st) (fate outcome p) statements := by
  have hswitch := Course.selectDatabase_cases (s := s) (p := p) (c := Course.start p file st)
    (Course.ended_start ..) (by rw [Course.report_start])
  rw [Course.session_start, Course.report_start] at hswitch
  rw [Course.result_eq_ok]
  unfold execute
  rcases hswitch with ⟨hrefused, hend⟩ | ⟨htolerates, hopen, hafter, hcounted⟩
  · rw [Course.unlessEnded_of_isSome hend, Course.unlessEnded_of_isSome hend]
    simp [hrefused, Option.isSome_iff_ne_none.1 hend]
  · rw [Course.unlessEnded_of_none hopen]
    have hstands : Course.Stands outcome owes p
        { file := file, databaseError := errorText? (switchOutcome s p st) } 0 0
        ((Course.start p file st).selectDatabase s p) := by
      refine ⟨hopen, by simp, ?_, by simp, ?_⟩
      · rw [hcounted]
        exact ⟨rfl, rfl, rfl⟩
      · rw [hafter, Multiset.map_zero]
        exact hidle
    -- a run that ended early met a statement that the right-hand side excludes
    rcases hstands.runStatements hs file statements with ⟨hend, x, hmem, hx⟩ | hdone
    · rw [Course.unlessEnded_of_isSome hend]
      rw [add_zero, Multiset.mem_coe] at hmem
      constructor
      · exact fun h => absurd h.1 (Option.isSome_iff_ne_none.1 hend)
      · rintro ⟨-, hall, -⟩
        exact absurd (hall x hmem) hx
    · have hbase : Report.countAttempts
          { file := file, databaseError := errorText? (switchOutcome s p st) } statements.length =
          { file := file, attempted := statements.length,
            databaseError := errorText? (switchOutcome s p st) } := by
        simp [Report.countAttempts]
      have htallies := hdone.tallies
      rw [hbase] at htallies
      rw [Course.unlessEnded_of_none hdone.ended, Course.ended_conclude, Course.report_conclude,
        htallies.sorted_eq hincreasing]
      constructor
      · rintro ⟨-, rfl⟩
        exact ⟨htolerates, fun x hx => hdone.tolerated x (Multiset.mem_coe.2 hx), rfl⟩
      · exact fun h => ⟨hdone.ended, h.2.2.symm⟩

end
end SqlBatch.Run
