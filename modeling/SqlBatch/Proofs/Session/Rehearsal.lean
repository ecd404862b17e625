import SqlBatch.Proofs.Run.Record
import SqlBatch.Proofs.Session.Virtual
import SqlBatch.Session.Rehearsal

/-! Connections to databases on a virtual clock record each operation once, and are candid. What a
connection has open are the statements that sleep. -/

namespace SqlBatch.Session

open Run

def Virtual.asleep (st : Virtual.State) : Multiset String :=
  (st.sleepers.map fun s => s.job.sql : Multiset String)

theorem Virtual.records : Virtual.session.Records Virtual.asleep where
  submit_some := by
    intro st job o ho
    unfold session submit at ho ⊢
    cases hsleep : sleep? job.sql with
    | none => exact ⟨by simp [hsleep], _, by simp [hsleep]; rfl⟩
    | some length => simp [hsleep] at ho
  submit_none := by
    intro st job ho
    unfold session submit at ho ⊢
    cases hsleep : sleep? job.sql with
    | none => simp [hsleep] at ho
    | some length =>
      refine ⟨?_, by simp [hsleep]; rfl⟩
      simp only [hsleep, asleep]
      rw [Multiset.cons_coe, Multiset.coe_eq_coe]
      exact (enqueue_perm _ st.sleepers).map fun s => s.job.sql
  next?_some := by
    intro st a hnext
    unfold session next? at hnext
    cases hsleepers : st.sleepers with
    | nil => simp [hsleepers] at hnext
    | cons s rest =>
      simp only [hsleepers, Option.some.injEq] at hnext
      subst hnext
      exact ⟨s.job.sql, _, by simp [asleep, hsleepers], rfl⟩
  abandon _ := rfl

namespace Rehearsal

def asleep (c : Connection) : Multiset String := Virtual.asleep c.database

theorem records_session : session.Records asleep where
  submit_some ho := Virtual.records.submit_some ho
  submit_none ho := Virtual.records.submit_none ho
  next?_some := by
    intro c a hnext
    obtain ⟨b, hb, rfl⟩ := Option.map_eq_some_iff.1 hnext
    exact Virtual.records.next?_some hb
  abandon _ := rfl

theorem candid_session : session.Candid where
  submit_some ho := Virtual.candid.submit_some ho
  submit_none := by
    intro c job ho
    obtain ⟨hcalm, hnext⟩ := Virtual.candid.submit_none ho
    exact ⟨hcalm, Option.isSome_map.trans hnext⟩
  next?_some := by
    intro c a hnext
    obtain ⟨b, hb, rfl⟩ := Option.map_eq_some_iff.1 hnext
    exact Virtual.candid.next?_some hb

theorem records_provider (behaviour : Behaviour) : (provider behaviour).Records asleep where
  session := records_session
  connect := by
    intro asked config
    simp only [provider, connect]
    split <;> rfl
  fresh := by
    intro asked config connection hopen
    simp only [provider, connect] at hopen
    split at hopen
    · simp at hopen
    · rw [Except.ok.injEq] at hopen
      rw [← hopen]
      rfl
  close := by
    intro asked connection
    simp only [provider, close]
    split <;> rfl

end Rehearsal
end SqlBatch.Session
