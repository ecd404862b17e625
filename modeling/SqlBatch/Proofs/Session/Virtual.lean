import SqlBatch.Proofs.Run.Answers
import SqlBatch.Session.Virtual

/-! The database on a virtual clock answers every job once, and what it answers depends on the text
and the bound of the job alone. It owes its sleepers their answers, and it is candid. -/

namespace SqlBatch.Session.Virtual

open Run

theorem enqueue_perm (s : Sleeper) (sleepers : List Sleeper) :
    (enqueue s sleepers).Perm (s :: sleepers) := by
  induction sleepers with
  | nil => exact .refl _
  | cons t ts ih =>
    unfold enqueue
    split
    · exact .refl _
    · exact (ih.cons t).trans (.swap s t ts)

def Owes (st : State) (jobs : Multiset Job) : Prop :=
  (st.sleepers.map Sleeper.job : Multiset Job) = jobs

theorem answers : session.Answers (fun job => outcome job.sql job.bound) Owes where
  submit_some := by
    intro st jobs job o howes ho
    unfold session submit at ho ⊢
    cases hsleep : sleep? job.sql with
    | none =>
      simp only [hsleep, Option.some.injEq] at ho ⊢
      exact ⟨ho.symm, howes⟩
    | some length => simp [hsleep] at ho
  submit_none := by
    intro st jobs job howes ho
    unfold session submit at ho ⊢
    cases hsleep : sleep? job.sql with
    | none => simp [hsleep] at ho
    | some length =>
      simp only [hsleep, Owes]
      -- where in the queue the job falls asleep does not matter
      rw [← howes, Multiset.cons_coe, Multiset.coe_eq_coe]
      exact (enqueue_perm _ st.sleepers).map Sleeper.job
  next?_none := by
    intro st jobs howes hnext
    unfold session next? at hnext
    cases hsleepers : st.sleepers with
    | nil =>
      rw [← howes, hsleepers]
      rfl
    | cons s rest => simp [hsleepers] at hnext
  next?_some := by
    intro st jobs a howes hnext
    unfold session next? at hnext
    cases hsleepers : st.sleepers with
    | nil => simp [hsleepers] at hnext
    | cons s rest =>
      simp only [hsleepers, Option.some.injEq] at hnext
      subst hnext
      refine ⟨s.job, rest.map Sleeper.job, ?_, rfl, rfl, rfl⟩
      rw [← howes, hsleepers]
      rfl

theorem enqueue_ne_nil (s : Sleeper) (sleepers : List Sleeper) : enqueue s sleepers ≠ [] := by
  intro hnil
  have hperm := enqueue_perm s sleepers
  rw [hnil] at hperm
  exact List.cons_ne_nil _ _ hperm.symm.eq_nil

theorem candid : session.Candid where
  submit_some := by
    intro st job o ho
    unfold session submit at ho ⊢
    cases hsleep : sleep? job.sql with
    | none =>
      simp only [hsleep, Option.some.injEq] at ho ⊢
      subst ho
      exact ⟨[.issue job.sql job.bound], job.sql, rfl, calm_singleton.2 rfl⟩
    | some length => simp [hsleep] at ho
  submit_none := by
    intro st job ho
    unfold session submit at ho ⊢
    cases hsleep : sleep? job.sql with
    | none => simp [hsleep] at ho
    | some length =>
      simp only [hsleep]
      refine ⟨calm_singleton.2 rfl, ?_⟩
      -- whoever has just fallen asleep will wake
      obtain ⟨s, rest, hsleepers⟩ :=
        List.exists_cons_of_ne_nil (enqueue_ne_nil
          ⟨st.now + min length.nanoseconds job.bound.nanoseconds, job⟩ st.sleepers)
      simp [next?, hsleepers]
  next?_some := by
    intro st a hnext
    unfold session next? at hnext
    cases hsleepers : st.sleepers with
    | nil => simp [hsleepers] at hnext
    | cons s rest =>
      simp only [hsleepers, Option.some.injEq] at hnext
      subst hnext
      exact ⟨[], s.job.sql, rfl, calm_nil⟩

end SqlBatch.Session.Virtual
