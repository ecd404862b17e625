import Mathlib.Algebra.Order.Group.Multiset
import SqlBatch.Proofs.Run.Answers
import SqlBatch.Proofs.Run.Course

/-! The account of a run on a session that answers every job once. At every moment the statements
handed over so far are settled or pending: the report counts the settled ones, in whatever order
their answers came, and the session owes the answers to the pending ones. A run that stands has
tolerated every outcome; a run that has ended met one that its policy does not tolerate. -/

namespace SqlBatch.Run

/-- What becomes of a statement, where jobs come out by `outcome`: a blank one succeeds without
being a job. -/
def fate (outcome : Job → Outcome) (p : Policy) (x : Statement) : Outcome :=
  if x.isEmpty then .ok () else outcome (Course.jobOf p x)

def failure? (index : Nat) : Outcome → Option StatementFailure
  | .ok () => none
  | .error f => some ⟨index, f.message⟩

section
variable {outcome : Job → Outcome} {p : Policy} {x : Statement}

theorem fate_of_isEmpty (h : x.isEmpty = true) : fate outcome p x = .ok () := by
  simp [fate, h]

theorem fate_of_not_isEmpty (h : x.isEmpty = false) :
    fate outcome p x = outcome (Course.jobOf p x) := by
  simp [fate, h]

end

/-- `r` is `base` with the statements in `settled` counted. -/
structure Report.Tallies (r base : Report) (outcomes : Statement → Outcome)
    (settled : Multiset Statement) : Prop where
  base_eq : { r with succeeded := 0, failures := [] } = base
  count : r.succeeded + r.failures.length = settled.card
  failures : (r.failures : Multiset StatementFailure) =
    settled.filterMap fun x => failure? x.index (outcomes x)

namespace Report.Tallies
variable {r base : Report} {outcomes : Statement → Outcome} {settled : Multiset Statement}

theorem credit (h : r.Tallies base outcomes settled) (x : Statement) :
    (r.credit x.index (outcomes x)).Tallies base outcomes (x ::ₘ settled) := by
  have hcount := h.count
  cases hx : outcomes x with
  | ok =>
    refine ⟨h.base_eq, ?_, ?_⟩
    · simp only [Report.credit, Report.countSuccess, Multiset.card_cons]
      omega
    · rw [Multiset.filterMap_cons_none _ _ (by rw [hx]; rfl)]
      exact h.failures
  | error f =>
    refine ⟨h.base_eq, ?_, ?_⟩
    · simp only [Report.credit, Report.addFailure, Multiset.card_cons, List.length_append,
        List.length_cons, List.length_nil]
      omega
    · have hentry : failure? x.index (outcomes x) = some ⟨x.index, f.message⟩ := by rw [hx]; rfl
      rw [Multiset.filterMap_cons_some (fun x => failure? x.index (outcomes x)) _ _ hentry,
        ← h.failures, ← Multiset.singleton_add, add_comm]
      rfl

theorem countAttempts (h : r.Tallies base outcomes settled) (n : Nat) :
    (r.countAttempts n).Tallies (base.countAttempts n) outcomes settled :=
  ⟨by rw [← h.base_eq]; rfl, h.count, h.failures⟩

end Report.Tallies

namespace Course
variable {σ : Type}

/-- The run goes on: all that was settled was tolerated and counted, and the rest is owed. -/
structure Stands (outcome : Job → Outcome) (owes : σ → Multiset Job → Prop) (p : Policy)
    (base : Report) (settled pending : Multiset Statement) (c : Course σ) : Prop where
  ended : c.ended = none
  tolerated : ∀ x ∈ settled, p.Tolerates (fate outcome p x)
  tallies : c.report.Tallies base (fate outcome p) settled
  sent : ∀ x ∈ pending, x.isEmpty = false
  owes : owes c.session (pending.map (jobOf p))

def Accounts (outcome : Job → Outcome) (owes : σ → Multiset Job → Prop) (p : Policy)
    (base : Report) (settled pending : Multiset Statement) (c : Course σ) : Prop :=
  (c.ended.isSome = true ∧ ∃ x ∈ settled + pending, ¬p.Tolerates (fate outcome p x)) ∨
    Stands outcome owes p base settled pending c

section
variable {outcome : Job → Outcome} {owes : σ → Multiset Job → Prop} {p : Policy} {base : Report}
  {settled pending : Multiset Statement} {c c' : Course σ} {s : Session σ} {x : Statement}

theorem Stands.settle (h : Stands outcome owes p base settled pending c) (file : String)
    (x : Statement) : Accounts outcome owes p base (x ::ₘ settled) pending
      (c.settle p file x.index (fate outcome p x)) := by
  by_cases htolerates : p.Tolerates (fate outcome p x)
  · refine Or.inr ⟨?_, ?_, ?_, h.sent, ?_⟩
    · rw [ended_settle file x.index htolerates, h.ended]
    · exact Multiset.forall_mem_cons.2 ⟨htolerates, h.tolerated⟩
    · rw [report_settle file x.index htolerates]
      exact h.tallies.credit x
    · rw [session_settle]
      exact h.owes
  · refine Or.inl ⟨ended_settle_of_not file x.index htolerates, x, ?_, htolerates⟩
    exact Multiset.mem_add.2 (Or.inl (Multiset.mem_cons_self x settled))

theorem Stands.of_eq (h : Stands outcome owes p base settled pending c)
    (hsession : c'.session = c.session) (hreport : c'.report = c.report)
    (hended : c'.ended = c.ended) : Stands outcome owes p base settled pending c' :=
  ⟨hended.trans h.ended, h.tolerated, hreport ▸ h.tallies, h.sent, hsession ▸ h.owes⟩

theorem Stands.skipBlank (h : Stands outcome owes p base settled pending c) (file : String)
    (hx : x.isEmpty = true) : Accounts outcome owes p base (x ::ₘ settled) pending
      (c.skipBlank p file x) := by
  have hnoted : Stands outcome owes p base settled pending (c.note (.skippingBlank x.index)) :=
    h.of_eq rfl rfl rfl
  have hsettled := hnoted.settle file x
  rw [fate_of_isEmpty hx] at hsettled
  exact hsettled

theorem Stands.countAttempts (h : Stands outcome owes p base settled pending c) (n : Nat) :
    Stands outcome owes p (base.countAttempts n) settled pending (c.countAttempts n) :=
  ⟨h.ended, h.tolerated, h.tallies.countAttempts n, h.sent, h.owes⟩

theorem Stands.runSerial (hs : s.Answers outcome owes)
    (h : Stands outcome owes p base settled 0 c) (file : String) (x : Statement) :
    Accounts outcome owes p (base.countAttempts 1) (x ::ₘ settled) 0
      (c.runSerial s p file x) := by
  have hstarted : Stands outcome owes p (base.countAttempts 1) settled 0
      ((c.announce p file x).countAttempts 1) :=
    Stands.countAttempts (h.of_eq (session_announce c p file x) (report_announce c p file x)
      (ended_announce c p file x)) 1
  unfold Course.runSerial
  cases hx : x.isEmpty with
  | true => exact hstarted.skipBlank file hx
  | false =>
    obtain ⟨houtcome, hidle⟩ := hs.ask hstarted.owes (jobOf p x)
    have hasked : Stands outcome owes p (base.countAttempts 1) settled 0
        (ask s ((c.announce p file x).countAttempts 1) (jobOf p x)).1 :=
      ⟨hstarted.ended, hstarted.tolerated, hstarted.tallies, hstarted.sent, hidle⟩
    have hsettled := hasked.settle file x
    rw [fate_of_not_isEmpty hx, ← houtcome] at hsettled
    exact hsettled

theorem Stands.handOver (hs : s.Answers outcome owes)
    (h : Stands outcome owes p base settled pending c) (file : String) (x : Statement) :
    ∃ settled' pending', settled' + pending' = x ::ₘ (settled + pending) ∧
      Accounts outcome owes p base settled' pending' (c.handOver s p file x) := by
  cases hx : x.isEmpty with
  | true =>
    rw [handOver_of_isEmpty file hx]
    exact ⟨x ::ₘ settled, pending, Multiset.cons_add .., h.skipBlank file hx⟩
  | false =>
    cases houtcome : (s.submit c.session (jobOf p x)).outcome with
    | some o =>
      obtain ⟨ho, howes⟩ := hs.submit_some h.owes houtcome
      have hhanded : Stands outcome owes p base settled pending (c.submitted s (jobOf p x)) :=
        ⟨h.ended, h.tolerated, h.tallies, h.sent, howes⟩
      have hsettled := hhanded.settle file x
      rw [fate_of_not_isEmpty hx, ← ho] at hsettled
      rw [handOver_of_outcome file hx houtcome]
      exact ⟨x ::ₘ settled, pending, Multiset.cons_add .., hsettled⟩
    | none =>
      have howes := hs.submit_none h.owes houtcome
      rw [← Multiset.map_cons] at howes
      rw [handOver_of_silence file hx houtcome]
      exact ⟨settled, x ::ₘ pending, Multiset.add_cons .., Or.inr ⟨h.ended, h.tolerated,
        h.tallies, Multiset.forall_mem_cons.2 ⟨hx, h.sent⟩, howes⟩⟩

theorem Stands.next? (hs : s.Answers outcome owes)
    (h : Stands outcome owes p base settled pending c) (file : String) {a : Answer σ}
    (hnext : s.next? c.session = some a) : ∃ x ∈ pending,
      Accounts outcome owes p base (x ::ₘ settled) (pending.erase x)
        ((c.answered a).settle p file a.index a.outcome) := by
  obtain ⟨job, rest, hjobs, hindex, houtcome, howes⟩ := hs.next?_some h.owes hnext
  -- which statement it is that is answered is up to the session
  obtain ⟨x, hmem, rfl, rfl⟩ := (Multiset.map_eq_cons _ _ _ _).2 hjobs
  have hanswered : Stands outcome owes p base settled (pending.erase x) (c.answered a) :=
    ⟨h.ended, h.tolerated, h.tallies, fun y hy => h.sent y (Multiset.mem_of_mem_erase hy),
      howes⟩
  have hsettled := hanswered.settle file x
  rw [fate_of_not_isEmpty (h.sent x hmem), ← houtcome] at hsettled
  rw [hindex]
  exact ⟨x, hmem, hsettled⟩

theorem Accounts.drain (hs : s.Answers outcome owes) (file : String) (n : Nat)
    (h : Accounts outcome owes p base settled pending c) (hn : pending.card ≤ n) :
    Accounts outcome owes p base (settled + pending) 0 (c.drain s p file n) := by
  induction n generalizing c settled pending with
  | zero =>
    obtain rfl : pending = 0 := Multiset.card_eq_zero.1 (Nat.le_zero.1 hn)
    rw [add_zero]
    exact h
  | succ n ih =>
    unfold Course.drain
    rcases h with ⟨hended, hreason⟩ | h
    · rw [if_pos hended]
      exact Or.inl ⟨hended, by rwa [add_zero]⟩
    · rw [if_neg (by simp [h.ended])]
      cases hnext : s.next? c.session with
      | none =>
        obtain rfl : pending = 0 := Multiset.map_eq_zero.1 (hs.next?_none h.owes hnext)
        rw [add_zero]
        exact Or.inr h
      | some a =>
        -- each turn moves one statement from the pending to the settled ones
        obtain ⟨x, hmem, haccounts⟩ := h.next? hs file hnext
        have hcard := Multiset.card_erase_add_one hmem
        have hsum : x ::ₘ settled + pending.erase x = settled + pending := by
          rw [Multiset.cons_add, ← Multiset.add_cons, Multiset.cons_erase hmem]
        rw [← hsum]
        exact ih haccounts (by omega)

theorem Accounts.serial (hs : s.Answers outcome owes) (file : String)
    (statements : List Statement) (h : Accounts outcome owes p base settled 0 c) :
    Accounts outcome owes p (base.countAttempts statements.length) (settled + statements) 0
      (c.serial s p file statements) := by
  induction statements generalizing c base settled with
  | nil =>
    rw [Multiset.coe_nil, add_zero]
    exact h
  | cons x xs ih =>
    have hsum : x ::ₘ settled + xs = settled + (x :: xs : List Statement) := by
      rw [← Multiset.cons_coe, Multiset.cons_add, Multiset.add_cons]
    have hcount : (base.countAttempts 1).countAttempts xs.length =
        base.countAttempts (x :: xs).length := by
      simp [Report.countAttempts, Nat.add_assoc, Nat.add_comm 1]
    rw [← hsum, ← hcount]
    refine ih (c := c.unlessEnded fun c => runSerial s p file c x) ?_
    rcases h with ⟨hended, y, hmem, hy⟩ | h
    · rw [unlessEnded_of_isSome hended]
      refine Or.inl ⟨hended, y, ?_, hy⟩
      rw [add_zero] at hmem ⊢
      exact Multiset.mem_cons_of_mem hmem
    · rw [unlessEnded_of_none h.ended]
      exact h.runSerial hs file x

theorem Accounts.handOver_all (hs : s.Answers outcome owes) (file : String)
    (statements : List Statement) (h : Accounts outcome owes p base settled pending c) :
    ∃ settled' pending', settled' + pending' = settled + pending + statements ∧
      Accounts outcome owes p base settled' pending' (statements.foldl
        (fun c x => c.unlessEnded fun c => handOver s p file c x) c) := by
  induction statements generalizing c settled pending with
  | nil => exact ⟨settled, pending, by simp, h⟩
  | cons x xs ih =>
    obtain ⟨settled₁, pending₁, hsum, hfirst⟩ : ∃ settled₁ pending₁,
        settled₁ + pending₁ = x ::ₘ (settled + pending) ∧
        Accounts outcome owes p base settled₁ pending₁
          (c.unlessEnded fun c => handOver s p file c x) := by
      rcases h with ⟨hended, y, hmem, hy⟩ | h
      · rw [unlessEnded_of_isSome hended]
        refine ⟨x ::ₘ settled, pending, Multiset.cons_add .., Or.inl ⟨hended, y, ?_, hy⟩⟩
        rw [Multiset.cons_add]
        exact Multiset.mem_cons_of_mem hmem
      · rw [unlessEnded_of_none h.ended]
        exact h.handOver hs file x
    obtain ⟨settled', pending', hall, haccounts⟩ := ih hfirst
    refine ⟨settled', pending', ?_, haccounts⟩
    rw [hall, hsum, ← Multiset.cons_coe, Multiset.cons_add, Multiset.add_cons]

theorem Stands.concurrent (hs : s.Answers outcome owes) (file : String)
    (statements : List Statement) (h : Stands outcome owes p base 0 0 c) :
    Accounts outcome owes p (base.countAttempts statements.length) statements 0
      (c.concurrent s p file statements) := by
  have hannounced : Stands outcome owes p (base.countAttempts statements.length) 0 0
      ((statements.foldl (fun c x => c.announce p file x) c).countAttempts statements.length) :=
    Stands.countAttempts (h.of_eq (c.apply_announce_all p file session_note statements)
      (c.apply_announce_all p file report_note statements)
      (c.apply_announce_all p file ended_note statements)) statements.length
  obtain ⟨settled, pending, hsum, haccounts⟩ :=
    Accounts.handOver_all hs file statements (Or.inr hannounced)
  rw [add_zero, zero_add] at hsum
  -- as many turns as there are statements are enough
  have hcard : pending.card ≤ statements.length := by
    rw [← Multiset.coe_card, ← hsum, Multiset.card_add]
    exact Nat.le_add_left _ _
  have hdrained := haccounts.drain hs file statements.length hcard
  rw [hsum] at hdrained
  exact hdrained

end
end Course
end SqlBatch.Run
