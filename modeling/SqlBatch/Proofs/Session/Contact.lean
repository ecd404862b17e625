import SqlBatch.Proofs.Session.Network
import SqlBatch.Session.Server

/-! The contacts to a server are drivers that give every call its own answer. A link may go dead
when a call on it is dropped; on a dead link no call comes back. -/

namespace SqlBatch.Session.Contact

open Run

variable {ℓ : Type} {send : ℓ → String → Sending ℓ} {lose : ℓ → ℓ} {cancelling : List Event}

def IsDead (send : ℓ → String → Sending ℓ) (link : ℓ) : Prop :=
  ∀ sql, (send link sql).reply? = none ∧ (send link sql).link = link

def linkBehind (send : ℓ → String → Sending ℓ) (link : ℓ) (sqls : List String) : ℓ :=
  sqls.foldl (fun link sql => (send link sql).link) link

/-- The reply to the last of the statements, and success if there is none. -/
def answer (send : ℓ → String → Sending ℓ) (link : ℓ) (sqls : List String) : Except String Unit :=
  ((send (linkBehind send link sqls.dropLast) (sqls.getLastD "")).reply?).getD (.ok ())

theorem linkBehind_concat (link : ℓ) (sqls : List String) (sql : String) :
    linkBehind send link (sqls ++ [sql]) = (send (linkBehind send link sqls) sql).link := by
  rw [linkBehind, List.foldl_append]
  rfl

def Sent (send : ℓ → String → Sending ℓ) (link : ℓ) (c : Contact ℓ) (sqls : List String) : Prop :=
  (IsDead send c.link ∧ c.reply? = none) ∨
    c.link = linkBehind send link sqls ∧ ∀ result ∈ c.reply?, result = answer send link sqls

theorem resolve_eq_some {c c' : Contact ℓ} {result : Except String Unit} :
    (driver send lose cancelling).resolve c result = some c' ↔
      c.reply? = some result ∧ { c with reply? := none } = c' := by
  obtain ⟨link, reply?, told⟩ := c
  rcases reply? with _ | e | _ <;> rcases result with e' | _ <;> simp [driver]

theorem pairs (hlose : ∀ link, lose link = link ∨ IsDead send (lose link)) (link : ℓ) :
    (driver send lose cancelling).Pairs (Sent send link) (answer send link) where
  call := by
    rintro c sqls sql (⟨hdead, -⟩ | ⟨hlink, -⟩)
    · obtain ⟨hreply, hsame⟩ := hdead sql
      refine .inl ⟨?_, hreply⟩
      change IsDead send (send c.link sql).link
      rwa [hsame]
    · refine .inr ⟨?_, fun result hresult => ?_⟩
      · rw [linkBehind_concat, ← hlink]
        rfl
      · have hreply : (send c.link sql).reply? = some result := hresult
        rw [answer, List.dropLast_concat, List.getLastD_concat, ← hlink, hreply]
        rfl
  resolve := by
    intro c sqls result c' hsent hresolve
    obtain ⟨hreply, rfl⟩ := resolve_eq_some.1 hresolve
    rcases hsent with ⟨-, hnone⟩ | ⟨hlink, hanswer⟩
    · rw [hnone] at hreply
      contradiction
    · exact ⟨hanswer result hreply, .inr ⟨hlink, by simp⟩⟩
  drop := by
    rintro c sqls (⟨hdead, -⟩ | ⟨hlink, -⟩)
    · rcases hlose c.link with hkept | hlost
      · exact .inl ⟨(congrArg (IsDead send) hkept).mpr hdead, rfl⟩
      · exact .inl ⟨hlost, rfl⟩
    · rcases hlose c.link with hkept | hlost
      · exact .inr ⟨hkept.trans hlink, by simp [driver]⟩
      · exact .inl ⟨hlost, rfl⟩
  cancel := by
    rintro c sqls (_ | problem) hsent <;> exact hsent

/-- What becomes of a statement that is alone. -/
theorem run_eq (p : Network.Protocol) (link : ℓ) (job : Job) :
    let sending := send link job.sql
    run p (driver send lose cancelling) link job =
      match sending.reply? with
      | some result => (sending.told, p.answer result, sending.link)
      | none => (sending.told ++ if p.cancels then cancelling else [],
          .error (.timeout job.bound), lose sending.link) := by
  intro sending
  have hcall : (driver send lose cancelling).call ⟨link, none, []⟩ job.sql =
      ⟨sending.link, sending.reply?, sending.told⟩ := rfl
  simp only [run, hcall]
  cases hreply : sending.reply? with
  | some result =>
    rw [Network.run_some (resolve_eq_some.2 ⟨by rw [hcall, hreply], rfl⟩), hcall]
    simp
  | none =>
    rw [Network.run_none, hcall]
    cases hcancels : p.cancels <;> simp [driver]

end SqlBatch.Session.Contact
