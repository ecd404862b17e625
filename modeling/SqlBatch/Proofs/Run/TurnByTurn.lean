import SqlBatch.Proofs.Session.Turns

/-! Serial and concurrent runs on a session behind a lock. The concurrent run hands its statements
over before the serial one comes to them, and the serial run is always where the lock is: it has
taken the statements that the concurrent run has settled, up to blank ones. When the first failure
ends them both, the statements that still wait for the lock never have it. -/

namespace SqlBatch.Run

def Report.ahead (r : Report) (attempts successes : Nat) : Report :=
  { r with attempted := r.attempted + attempts, succeeded := r.succeeded + successes }

namespace Report
variable (r : Report) (m n : Nat)

theorem credit_ahead (index : Nat) (o : Outcome) :
    (r.ahead m n).credit index o = (r.credit index o).ahead m n := by
  cases o with
  | ok => simp [credit, ahead, countSuccess, Nat.add_right_comm]
  | error f => rfl

theorem countAttempts_ahead : (r.countAttempts 1).ahead m n = r.ahead (m + 1) n := by
  simp [countAttempts, ahead, Nat.add_assoc, Nat.add_comm 1]

theorem countSuccess_ahead : r.countSuccess.ahead m n = r.ahead m (n + 1) := by
  simp [countSuccess, ahead, Nat.add_assoc, Nat.add_comm 1]

end Report

theorem jobsOf_append (p : Policy) (xs ys : List Statement) :
    jobsOf p (xs ++ ys) = jobsOf p xs ++ jobsOf p ys := by
  simp only [jobsOf, List.filter_append, List.map_append]

section
variable (answer : List Job → Job → Outcome) (p : Policy) (before : List Job)

theorem length_outcomesBehind (xs : List Statement) :
    (outcomesBehind answer p before xs).length = xs.length := by
  induction xs generalizing before with
  | nil => rfl
  | cons x xs ih => exact congrArg (· + 1) (ih _)

theorem outcomesBehind_append (xs ys : List Statement) :
    outcomesBehind answer p before (xs ++ ys) =
      outcomesBehind answer p before xs ++
        outcomesBehind answer p (before ++ jobsOf p xs) ys := by
  induction xs generalizing before with
  | nil => simp [outcomesBehind, jobsOf]
  | cons x xs ih =>
    rw [List.cons_append, outcomesBehind, outcomesBehind, ih, List.append_assoc, ← jobsOf_cons,
      List.cons_append]

theorem outcomesBehind_concat (xs : List Statement) (x : Statement) :
    outcomesBehind answer p before (xs ++ [x]) =
      outcomesBehind answer p before xs ++ [fate (answer (before ++ jobsOf p xs)) p x] :=
  outcomesBehind_append ..

end

theorem FailsFirst.eq {outcomes : List Outcome} {k l : Nat} {f g : Failure}
    (h : FailsFirst outcomes k f) (h' : FailsFirst outcomes l g) : k = l := by
  rcases Nat.lt_trichotomy k l with hlt | heq | hgt
  · have hok := (h'.first k hlt).symm.trans h.fails
    simp at hok
  · exact heq
  · have hok := (h.first l hgt).symm.trans h'.fails
    simp at hok

namespace Course
variable {σ : Type}

section
variable {s : Session σ} {p : Policy}

theorem serial_append (c : Course σ) (file : String) (xs ys : List Statement) :
    c.serial s p file (xs ++ ys) = (c.serial s p file xs).serial s p file ys :=
  List.foldl_append

theorem serial_cons {c : Course σ} (hended : c.ended = none) (file : String) (x : Statement)
    (xs : List Statement) :
    c.serial s p file (x :: xs) = (c.runSerial s p file x).serial s p file xs := by
  rw [serial, List.foldl_cons, unlessEnded_of_none hended]
  rfl

theorem serial_of_isSome {c : Course σ} (hended : c.ended.isSome = true) (file : String)
    (xs : List Statement) : c.serial s p file xs = c :=
  foldl_unlessEnded_of_isSome _ hended xs

theorem runSerial_of_takesTurns {answer : List Job → Job → Outcome} {stands : σ → Queue → Prop}
    (hs : s.TakesTurns answer stands) {d : Course σ} {before : List Job}
    (hfree : stands d.session ⟨before, none, []⟩) (file : String) (x : Statement) :
    ∃ d' : Course σ,
      d.runSerial s p file x = d'.settle p file x.index (fate (answer before) p x) ∧
      stands d'.session ⟨before ++ jobsOf p [x], none, []⟩ ∧
      d'.report = d.report.countAttempts 1 ∧ d'.ended = d.ended := by
  have hstart : d.session = s.after d.session [] := rfl
  obtain ⟨d', hrun, hsession, hreport, hended⟩ := runSerial_eq_settle (p := p) file x hstart
  have hanswer : s.answerFrom d.session [] = answer before := by
    funext job
    rw [hs.answerFrom_eq hfree, List.append_nil]
  rw [hanswer] at hrun
  refine ⟨d', hrun, ?_, hreport, hended⟩
  rw [hsession]
  exact hs.after hfree _

end

section
variable (answer : List Job → Job → Outcome) (stands : σ → Queue → Prop) (p : Policy)
  (base : List Job)

/-- Behind the jobs of `base`, both runs have taken the statements of `front`. The concurrent run
`c` has handed over those of `handed` besides, and has yet to hand over those of `later`. -/
structure Ahead (front handed later : List Statement) (c d : Course σ) : Prop where
  concurrent : c.ended = none
  serial : d.ended = none
  tolerated : ∀ o ∈ outcomesBehind answer p base front, p.Tolerates o
  queue : ∃ q : Queue, stands c.session q ∧ q.done = base ++ jobsOf p front ∧
    q.unfinished = jobsOf p handed
  free : stands d.session ⟨base ++ jobsOf p front, none, []⟩
  report : c.report =
    d.report.ahead (handed.length + later.length) (handed.countP (·.isEmpty))

/-- The statement `x` has ended both runs; the jobs of `handed` still wait for the lock. -/
structure Stopped (front : List Statement) (x : Statement) (handed : List Statement)
    (c d : Course σ) : Prop where
  ended : c.ended.isSome = true
  same : d.ended = c.ended
  tolerated : ∀ o ∈ outcomesBehind answer p base front, p.Tolerates o
  refused : ¬p.Tolerates (fate (answer (base ++ jobsOf p front)) p x)
  queue : stands c.session ⟨base ++ jobsOf p (front ++ [x]), none, jobsOf p handed⟩
  free : stands d.session ⟨base ++ jobsOf p (front ++ [x]), none, []⟩

end

section
variable {answer : List Job → Job → Outcome} {stands : σ → Queue → Prop} {p : Policy}
  {base : List Job} {s : Session σ} {front handed later : List Statement} {x : Statement}
  {c d : Course σ} {taken : List Statement}

theorem settle_ahead (hs : s.TakesTurns answer stands) (hconcurrent : c.ended = none)
    (hserial : d.ended = none)
    (htolerated : ∀ o ∈ outcomesBehind answer p base front, p.Tolerates o)
    (hqueue : stands c.session ⟨base ++ jobsOf p (front ++ [x]), none, jobsOf p handed⟩)
    (hfree : stands d.session ⟨base ++ jobsOf p front, none, []⟩)
    (hreport : c.report =
      d.report.ahead (handed.length + later.length + 1) (handed.countP (·.isEmpty)))
    (file : String) :
    let c' := c.settle p file x.index (fate (answer (base ++ jobsOf p front)) p x)
    Ahead answer stands p base (front ++ [x]) handed later c' (d.runSerial s p file x) ∨
      Stopped answer stands p base front x handed c' (d.runSerial s p file x) := by
  intro c'
  obtain ⟨d', hrun, hstands, hcounted, hended⟩ :=
    runSerial_of_takesTurns (p := p) hs hfree file x
  rw [List.append_assoc, ← jobsOf_append] at hstands
  rw [← Report.countAttempts_ahead, ← hcounted] at hreport
  rw [hserial] at hended
  rw [hrun]
  by_cases htolerates : p.Tolerates (fate (answer (base ++ jobsOf p front)) p x)
  · refine Or.inl ⟨?_, ?_, ?_, ⟨⟨_, none, jobsOf p handed⟩, ?_, rfl, rfl⟩, ?_, ?_⟩
    · rw [ended_settle file x.index htolerates, hconcurrent]
    · rw [ended_settle file x.index htolerates, hended]
    · rw [outcomesBehind_concat, List.forall_mem_append]
      exact ⟨htolerated, List.forall_mem_singleton.2 htolerates⟩
    · rw [session_settle]
      exact hqueue
    · rw [session_settle]
      exact hstands
    · rw [report_settle file x.index htolerates, report_settle file x.index htolerates, hreport,
        Report.credit_ahead]
  · refine Or.inr ⟨ended_settle_of_not file x.index htolerates, ?_, htolerated, htolerates, ?_, ?_⟩
    · obtain ⟨f, hf⟩ : ∃ f, fate (answer (base ++ jobsOf p front)) p x = .error f := by
        cases hfate : fate (answer (base ++ jobsOf p front)) p x with
        | ok => exact absurd (Or.inr hfate) htolerates
        | error f => exact ⟨f, rfl⟩
      have hforce : p.force = false := Bool.eq_false_iff.2 fun h => htolerates (Or.inl h)
      simp only [c', hf, ended_settle_error _ hforce]
    · rw [session_settle]
      exact hqueue
    · rw [session_settle]
      exact hstands

namespace Ahead

theorem skip (h : Ahead answer stands p base front (x :: handed) later c d)
    (hs : s.TakesTurns answer stands) (hx : x.isEmpty = true) (file : String) :
    Ahead answer stands p base (front ++ [x]) handed later c (d.runSerial s p file x) := by
  obtain ⟨d', hrun, hstands, hcounted, hended⟩ :=
    runSerial_of_takesTurns (p := p) hs h.free file x
  rw [List.append_assoc, ← jobsOf_append] at hstands
  rw [fate_of_isEmpty hx] at hrun
  obtain ⟨q, hq, hdone, hunfinished⟩ := h.queue
  rw [hrun]
  refine ⟨h.concurrent, ?_, ?_, ⟨q, hq, ?_, ?_⟩, ?_, ?_⟩
  · rw [ended_settle file x.index (Or.inr rfl), hended, h.serial]
  · rw [outcomesBehind_concat, List.forall_mem_append, fate_of_isEmpty hx]
    exact ⟨h.tolerated, List.forall_mem_singleton.2 (Or.inr rfl)⟩
  · rw [hdone, jobsOf_append, jobsOf_of_isEmpty p hx, List.append_nil]
  · rw [hunfinished, jobsOf_cons, jobsOf_of_isEmpty p hx, List.nil_append]
  · rw [session_settle]
    exact hstands
  · rw [settle_ok_report, hcounted, Report.countSuccess_ahead, Report.countAttempts_ahead,
      h.report]
    simp [hx, Nat.add_right_comm]

theorem catchUp (h : Ahead answer stands p base front handed later c d)
    (hs : s.TakesTurns answer stands) (hblank : jobsOf p handed = []) (file : String) :
    Ahead answer stands p base (front ++ handed) [] later c (d.serial s p file handed) := by
  induction handed generalizing front d with
  | nil => rwa [List.append_nil]
  | cons x xs ih =>
    rw [jobsOf_cons, List.append_eq_nil_iff] at hblank
    cases hx : x.isEmpty with
    | true =>
      have hnext := ih (h.skip hs hx file) hblank.2
      rwa [List.append_assoc, ← serial_cons h.serial] at hnext
    | false =>
      rw [jobsOf_of_not_isEmpty p hx] at hblank
      exact absurd hblank.1 (List.cons_ne_nil _ _)

theorem handOver_of_silence (h : Ahead answer stands p base front handed (x :: later) c d)
    (hs : s.TakesTurns answer stands) (hx : x.isEmpty = false)
    (hsilent : (s.submit c.session (jobOf p x)).outcome = none) (file : String) :
    Ahead answer stands p base front (handed ++ [x]) later (c.handOver s p file x) d := by
  obtain ⟨q, hq, hdone, hunfinished⟩ := h.queue
  obtain ⟨q', hsubmits, hq'⟩ := hs.submit (jobOf p x) hq
  rw [hsilent] at hsubmits
  obtain ⟨hdone', hunfinished'⟩ := hsubmits.of_none
  rw [Course.handOver_of_silence file hx hsilent]
  refine ⟨h.concurrent, h.serial, h.tolerated, ⟨q', hq', hdone'.trans hdone, ?_⟩, h.free, ?_⟩
  · rw [hunfinished', hunfinished, jobsOf_append, jobsOf_of_not_isEmpty p hx]
  · refine h.report.trans ?_
    simp [hx, Nat.add_assoc, Nat.add_comm 1]

theorem handOver_of_isEmpty (h : Ahead answer stands p base front handed (x :: later) c d)
    (hx : x.isEmpty = true) (file : String) :
    Ahead answer stands p base front (handed ++ [x]) later (c.handOver s p file x) d := by
  obtain ⟨q, hq, hdone, hunfinished⟩ := h.queue
  rw [Course.handOver_of_isEmpty file hx, skipBlank]
  refine ⟨?_, h.serial, h.tolerated, ⟨q, ?_, hdone, ?_⟩, h.free, ?_⟩
  · rw [ended_settle file x.index (Or.inr rfl), ended_note, h.concurrent]
  · rw [session_settle, session_note]
    exact hq
  · rw [hunfinished, jobsOf_append, jobsOf_of_isEmpty p hx, List.append_nil]
  · rw [settle_ok_report, report_note, h.report]
    simp [Report.ahead, Report.countSuccess, hx, Nat.add_assoc, Nat.add_comm 1]

theorem handOver_of_outcome (h : Ahead answer stands p base front handed (x :: later) c d)
    (hs : s.TakesTurns answer stands) (hx : x.isEmpty = false) {o : Outcome}
    (ho : (s.submit c.session (jobOf p x)).outcome = some o) (file : String) :
    let c' := c.handOver s p file x
    let d' := d.serial s p file (handed ++ [x])
    Ahead answer stands p base (front ++ handed ++ [x]) [] later c' d' ∨
      Stopped answer stands p base (front ++ handed) x [] c' d' := by
  intro c' d'
  obtain ⟨q, hq, hdone, hunfinished⟩ := h.queue
  obtain ⟨q', hsubmits, hq'⟩ := hs.submit (jobOf p x) hq
  rw [ho] at hsubmits
  obtain ⟨hfree, hanswer, hq''⟩ := hsubmits.of_some
  rw [hfree] at hunfinished
  have hblank : jobsOf p handed = [] := hunfinished.symm
  have hcaught := h.catchUp hs hblank file
  have hd' : d' = (d.serial s p file handed).runSerial s p file x := by
    rw [show d' = _ from serial_append .., serial_cons hcaught.serial]
    rfl
  have hc' : c' = (c.submitted s (jobOf p x)).settle p file x.index
      (fate (answer (base ++ jobsOf p (front ++ handed))) p x) := by
    rw [fate_of_not_isEmpty hx, jobsOf_append, hblank, List.append_nil, ← hdone, ← hanswer]
    exact Course.handOver_of_outcome file hx ho
  rw [hc', hd']
  refine settle_ahead (c := c.submitted s (jobOf p x)) hs h.concurrent hcaught.serial
    hcaught.tolerated ?_ hcaught.free ?_ file
  · rw [hq'', hdone] at hq'
    rw [jobsOf_append, jobsOf_append, hblank, jobsOf_of_not_isEmpty p hx, List.append_nil,
      ← List.append_assoc]
    exact hq'
  · exact hcaught.report

end Ahead

theorem Ahead.next? (h : Ahead answer stands p base front (x :: handed) later c d)
    (hs : s.TakesTurns answer stands) (hx : x.isEmpty = false) (file : String) :
    ∃ a, s.next? c.session = some a ∧
      let c' := (c.answered a).settle p file a.index a.outcome
      Ahead answer stands p base (front ++ [x]) handed later c' (d.runSerial s p file x) ∨
        Stopped answer stands p base front x handed c' (d.runSerial s p file x) := by
  obtain ⟨q, hq, hdone, hunfinished⟩ := h.queue
  rw [jobsOf_cons, jobsOf_of_not_isEmpty p hx, List.singleton_append] at hunfinished
  cases hnext : s.next? c.session with
  | none =>
    rw [hs.next?_none hq hnext] at hunfinished
    contradiction
  | some a =>
    obtain ⟨job, q', hfinishes, hindex, houtcome, hq'⟩ := hs.next?_some hq hnext
    obtain ⟨rfl, hwaiting⟩ := List.cons.inj (hfinishes.unfinished.symm.trans hunfinished)
    rw [hfinishes.left, hdone, hwaiting, List.append_assoc, ← jobsOf_of_not_isEmpty p hx,
      ← jobsOf_append] at hq'
    have hfate : a.outcome = fate (answer (base ++ jobsOf p front)) p x := by
      rw [houtcome, fate_of_not_isEmpty hx, hdone]
    refine ⟨a, rfl, ?_⟩
    rw [hindex, hfate]
    refine settle_ahead (c := c.answered a) hs h.concurrent h.serial h.tolerated hq' h.free ?_ file
    have hreport := h.report
    simp only [List.length_cons, hx, Bool.false_eq_true, not_false_eq_true,
      List.countP_cons_of_neg] at hreport
    rwa [Nat.add_right_comm] at hreport

theorem Stopped.serial {file : String} (h : Stopped answer stands p base front x handed c
      (d.serial s p file (taken ++ [x]))) (rest : List Statement) :
    Stopped answer stands p base front x handed c (d.serial s p file (taken ++ x :: rest)) := by
  rw [List.append_cons, serial_append, serial_of_isSome (h.same ▸ h.ended)]
  exact h

theorem Ahead.handOver_all (h : Ahead answer stands p base front handed later c d)
    (hs : s.TakesTurns answer stands) (file : String) :
    let c' := later.foldl (fun c x => c.unlessEnded fun c => c.handOver s p file x) c
    (∃ taken back, handed ++ later = taken ++ back ∧
      Ahead answer stands p base (front ++ taken) back [] c' (d.serial s p file taken)) ∨
    ∃ taken x rest, handed ++ later = taken ++ x :: rest ∧
      Stopped answer stands p base (front ++ taken) x [] c'
        (d.serial s p file (handed ++ later)) := by
  induction later generalizing front handed c d with
  | nil => exact Or.inl ⟨[], handed, List.append_nil _, by rwa [List.append_nil]⟩
  | cons x xs ih =>
    rw [List.foldl_cons, unlessEnded_of_none h.concurrent]
    cases hx : x.isEmpty with
    | true =>
      rw [List.append_cons]
      exact ih (h.handOver_of_isEmpty hx file)
    | false =>
      cases ho : (s.submit c.session (jobOf p x)).outcome with
      | none =>
        rw [List.append_cons]
        exact ih (h.handOver_of_silence hs hx ho file)
      | some o =>
        rcases h.handOver_of_outcome hs hx ho file with hahead | hstopped
        · -- the serial run has caught up, and goes on from there
          rw [List.append_cons, serial_append]
          rcases ih hahead with ⟨taken, back, hsplit, hall⟩ | ⟨taken, y, rest, hsplit, hall⟩
          · rw [List.append_assoc front, List.append_assoc front, ← serial_append] at hall
            exact Or.inl ⟨handed ++ [x] ++ taken, back, by
              rw [List.append_assoc _ taken, ← hsplit, List.nil_append], hall⟩
          · rw [List.append_assoc front, List.append_assoc front, List.nil_append] at hall
            exact Or.inr ⟨handed ++ [x] ++ taken, y, rest, by
              rw [List.append_assoc _ taken, ← hsplit, List.nil_append], hall⟩
        · rw [foldl_unlessEnded_of_isSome _ hstopped.ended]
          exact Or.inr ⟨handed, x, xs, rfl, hstopped.serial xs⟩

theorem ended_handOver_all (hsilent : ∀ st job, (s.submit st job).outcome = none)
    (hended : c.ended = none) (file : String) (statements : List Statement) :
    (statements.foldl (fun c x => c.unlessEnded fun c => c.handOver s p file x) c).ended =
      none := by
  induction statements generalizing c with
  | nil => exact hended
  | cons x xs ih =>
    rw [List.foldl_cons, unlessEnded_of_none hended]
    refine ih ?_
    cases hx : x.isEmpty with
    | true =>
      rw [handOver_of_isEmpty file hx, skipBlank, ended_settle file x.index (Or.inr rfl)]
      exact hended
    | false =>
      rw [handOver_of_silence file hx (hsilent _ _)]
      exact hended

theorem Ahead.drain (h : Ahead answer stands p base front handed [] c d)
    (hs : s.TakesTurns answer stands) (file : String) {n : Nat} (hn : handed.length ≤ n) :
    Ahead answer stands p base (front ++ handed) [] [] (c.drain s p file n)
      (d.serial s p file handed) ∨
    ∃ taken x rest, handed = taken ++ x :: rest ∧
      Stopped answer stands p base (front ++ taken) x rest (c.drain s p file n)
        (d.serial s p file handed) := by
  induction handed generalizing front c d n with
  | nil =>
    obtain ⟨q, hq, -, hunfinished⟩ := h.queue
    have hdrained : c.drain s p file n = c := by
      cases n with
      | zero => rfl
      | succ n =>
        cases hnext : s.next? c.session with
        | none => simp [Course.drain, hnext]
        | some a =>
          obtain ⟨job, q', hfinishes, -⟩ := hs.next?_some hq hnext
          rw [hfinishes.unfinished] at hunfinished
          contradiction
    rw [hdrained, List.append_nil]
    exact Or.inl h
  | cons x xs ih =>
    rw [serial_cons h.serial, List.append_cons]
    cases hx : x.isEmpty with
    | true =>
      rcases ih (h.skip hs hx file) (Nat.le_of_succ_le hn) with
        hall | ⟨taken, y, rest, hsplit, hall⟩
      · exact Or.inl hall
      · rw [List.append_assoc front] at hall
        exact Or.inr ⟨x :: taken, y, rest, by rw [hsplit]; rfl, hall⟩
    | false =>
      obtain ⟨a, hnext, hsettled⟩ := h.next? hs hx file
      obtain ⟨m, rfl⟩ : ∃ m, n = m + 1 := ⟨n - 1, by simp at hn; omega⟩
      have hdrain : c.drain s p file (m + 1) =
          ((c.answered a).settle p file a.index a.outcome).drain s p file m := by
        rw [Course.drain, if_neg (by simp [h.concurrent])]
        simp only [hnext]
        rfl
      rw [hdrain]
      rcases hsettled with hahead | hstopped
      · rcases ih hahead (Nat.le_of_succ_le_succ hn) with
          hall | ⟨taken, y, rest, hsplit, hall⟩
        · exact Or.inl hall
        · rw [List.append_assoc front] at hall
          exact Or.inr ⟨x :: taken, y, rest, by rw [hsplit]; rfl, hall⟩
      · rw [drain_of_isSome file hstopped.ended, serial_of_isSome (hstopped.same ▸ hstopped.ended)]
        exact Or.inr ⟨[], x, xs, rfl, by rwa [List.append_nil]⟩

/-- Either run takes all statements, or both stop at the same one. -/
theorem concurrent_ahead_serial (hs : s.TakesTurns answer stands) (hended : c.ended = none)
    (hfree : stands c.session ⟨base, none, []⟩) (file : String) (statements : List Statement) :
    let concurrent := c.concurrent s p file statements
    let serial := c.serial s p file statements
    Ahead answer stands p base statements [] [] concurrent serial ∨
    ∃ front x back later, statements = front ++ x :: (back ++ later) ∧
      Stopped answer stands p base front x back concurrent serial ∧
      ((∀ st job, (s.submit st job).outcome = none) → later = []) := by
  let counted := (statements.foldl (fun c x => c.announce p file x) c).countAttempts
    statements.length
  have hsession : counted.session = c.session := c.apply_announce_all p file session_note statements
  have hcounted : counted.ended = none :=
    (c.apply_announce_all p file ended_note statements).trans hended
  have hreport : counted.report = c.report.countAttempts statements.length :=
    congrArg (·.countAttempts statements.length)
      (c.apply_announce_all p file report_note statements)
  have hstart : Ahead answer stands p base [] [] statements counted c := by
    refine ⟨hcounted, hended, List.forall_mem_nil _, ⟨⟨base, none, []⟩, ?_, ?_, rfl⟩, ?_, ?_⟩
    · rw [hsession]
      exact hfree
    · exact (List.append_nil base).symm
    · rwa [jobsOf, List.filter_nil, List.map_nil, List.append_nil]
    · rw [hreport]
      simp [Report.countAttempts, Report.ahead]
  rcases hstart.handOver_all hs file with
    ⟨taken, back, hsplit, hahead⟩ | ⟨taken, x, rest, hsplit, hstopped⟩
  · rw [List.nil_append] at hsplit
    have hlength : back.length ≤ statements.length := by simp [hsplit]
    have hserial : c.serial s p file statements =
        (c.serial s p file taken).serial s p file back := by rw [hsplit, serial_append]
    rcases hahead.drain hs file hlength with hall | ⟨more, x, rest, hback, hstopped⟩
    · rw [List.nil_append, ← hsplit, ← hserial] at hall
      exact Or.inl hall
    · rw [List.nil_append, ← hserial] at hstopped
      refine Or.inr ⟨taken ++ more, x, rest, [], ?_, hstopped, fun _ => rfl⟩
      rw [hsplit, hback, List.append_assoc, List.append_nil]
  · rw [List.nil_append] at hstopped
    have hended' := hstopped.ended
    refine Or.inr ⟨taken, x, [], rest, hsplit, ?_, fun hsilent => ?_⟩
    · unfold Course.concurrent
      rw [drain_of_isSome file hended']
      exact hstopped
    · rw [ended_handOver_all hsilent hcounted] at hended'
      contradiction

theorem session_selectDatabase (c : Course σ) :
    (c.selectDatabase s p).session = afterSwitch s p c.session := by
  unfold selectDatabase afterSwitch switchJob?
  cases p.database with
  | none => rfl
  | some database =>
    simp only [Option.bind_some]
    cases (s.backend c.session).useDatabase? database with
    | none => rfl
    | some sql =>
      simp only [Option.map_some, ask, session_progress]
      split
      · simp
      · split <;> simp

theorem Stopped.failsFirst (h : Stopped answer stands p base front x handed c d)
    (rest : List Statement) :
    ∃ f, FailsFirst (outcomesBehind answer p base (front ++ x :: rest)) front.length f := by
  have hforce : p.force = false := Bool.eq_false_iff.2 fun hforce => h.refused (Or.inl hforce)
  have hlength := length_outcomesBehind answer p base front
  cases hfate : fate (answer (base ++ jobsOf p front)) p x with
  | ok => exact absurd (Or.inr hfate) h.refused
  | error f =>
    refine ⟨f, ?_, fun i hi => ?_⟩
    · rw [outcomesBehind_append, List.getElem?_append_right hlength.le, hlength, Nat.sub_self,
        outcomesBehind, hfate]
      rfl
    · rw [← hlength] at hi
      rw [outcomesBehind_append, List.getElem?_append_left hi, List.getElem?_eq_getElem hi]
      have hok := (h.tolerated _ (List.getElem_mem hi)).resolve_left (by simp [hforce])
      rw [hok]

theorem session_conclude (c : Course σ) (file : String) :
    (c.conclude p file).session = c.session :=
  session_progress ..

theorem Ahead.result_conclude (h : Ahead answer stands p base front [] [] c d) (file : String) :
    (c.conclude p file).result = (d.conclude p file).result := by
  have hreport : c.report = d.report := h.report
  refine (result_eq_ok.2 ⟨?_, report_conclude ..⟩).trans
    (result_eq_ok.2 ⟨?_, (report_conclude ..).trans (by rw [hreport])⟩).symm
  · rw [ended_conclude, h.concurrent]
  · rw [ended_conclude, h.serial]

theorem Stopped.result_eq (h : Stopped answer stands p base front x handed c d) :
    c.result = d.result := by
  obtain ⟨f, hf⟩ := Option.isSome_iff_exists.1 h.ended
  rw [result, result, h.same, hf]

theorem drain_withMode (m : Mode) (c : Course σ) (file : String) (n : Nat) :
    c.drain s { p with mode := m } file n = c.drain s p file n := by
  induction n generalizing c with
  | zero => rfl
  | succ n ih =>
    rw [drain, drain]
    split
    · rfl
    · split
      · rfl
      · exact ih _

theorem execute_serial (file : String) (statements : List Statement) (st : σ) :
    execute s { p with mode := .serial } file statements st =
      (((start p file st).selectDatabase s p).unlessEnded
        (serial s p file statements)).unlessEnded (conclude p file) :=
  rfl

theorem execute_concurrent (file : String) (statements : List Statement) (st : σ) :
    execute s { p with mode := .concurrent } file statements st =
      (((start p file st).selectDatabase s p).unlessEnded
        (concurrent s p file statements)).unlessEnded (conclude p file) := by
  have hmode : concurrent s { p with mode := .concurrent } file statements =
      concurrent s p file statements :=
    funext fun c => drain_withMode ..
  exact congrArg (fun f => (((start p file st).selectDatabase s p).unlessEnded f).unlessEnded
    (conclude p file)) hmode

end
end Course

section
variable {σ : Type} {s : Session σ} {answer : List Job → Job → Outcome} {stands : σ → Queue → Prop}

/-- Over a lock, the mode decides neither what a run comes to nor which jobs start, nor their order.
Behind the jobs `before` and the database switch, all statements are taken whose outcomes the policy
tolerates; without force, the first one that fails is the last one that starts, and what a
concurrent run has handed over behind it is left in the queue. -/
theorem execute_concurrent_starts_as_serial (hs : s.TakesTurns answer stands) (p : Policy)
    (file : String) (statements : List Statement) {st : σ} {before : List Job}
    (hfree : stands st ⟨before, none, []⟩) :
    let serial := execute s { p with mode := .serial } file statements st
    let concurrent := execute s { p with mode := .concurrent } file statements st
    let switched := before ++ (switchJob? s p st).toList
    let outcomes := outcomesBehind answer p switched statements
    concurrent.result = serial.result ∧
    (¬p.Tolerates (switchOutcome s p st) →
      stands serial.session ⟨switched, none, []⟩ ∧
      stands concurrent.session ⟨switched, none, []⟩) ∧
    (p.Tolerates (switchOutcome s p st) →
      ((∀ o ∈ outcomes, p.Tolerates o) →
        stands serial.session ⟨switched ++ jobsOf p statements, none, []⟩ ∧
        stands concurrent.session ⟨switched ++ jobsOf p statements, none, []⟩) ∧
      (p.force = false → ∀ k f, FailsFirst outcomes k f →
        let started := switched ++ jobsOf p (statements.take (k + 1))
        let behind := jobsOf p (statements.drop (k + 1))
        stands serial.session ⟨started, none, []⟩ ∧
        ∃ waiting, stands concurrent.session ⟨started, none, waiting⟩ ∧ waiting <+: behind ∧
          ((∀ st job, (s.submit st job).outcome = none) → waiting = behind))) := by
  intro serial concurrent switched outcomes
  have hserial : serial = _ := Course.execute_serial (p := p) file statements st
  have hconcurrent : concurrent = _ := Course.execute_concurrent (p := p) file statements st
  have hswitched : stands ((Course.start p file st).selectDatabase s p).session
      ⟨switched, none, []⟩ := by
    rw [Course.session_selectDatabase, Course.session_start]
    unfold afterSwitch switched
    cases switchJob? s p st with
    | none => rwa [Option.toList_none, List.append_nil]
    | some job => exact (hs.ask hfree job).2
  have hcases := Course.selectDatabase_cases (s := s) (p := p) (c := Course.start p file st)
    (Course.ended_start ..) (by rw [Course.report_start])
  rw [Course.session_start] at hcases
  rcases hcases with ⟨hrefused, hended⟩ | ⟨htolerates, hended, -, -⟩
  · -- neither run comes to its statements
    rw [Course.unlessEnded_of_isSome hended, Course.unlessEnded_of_isSome hended] at hserial
    rw [Course.unlessEnded_of_isSome hended, Course.unlessEnded_of_isSome hended] at hconcurrent
    rw [hserial, hconcurrent]
    exact ⟨rfl, fun _ => ⟨hswitched, hswitched⟩, fun h => absurd h hrefused⟩
  · rw [Course.unlessEnded_of_none hended] at hserial hconcurrent
    rcases Course.concurrent_ahead_serial (p := p) hs hended hswitched file statements
      with hall | ⟨front, x, back, later, hsplit, hstopped, hsilent⟩
    · rw [Course.unlessEnded_of_none hall.serial] at hserial
      rw [Course.unlessEnded_of_none hall.concurrent] at hconcurrent
      obtain ⟨q, hq, hdone, hunfinished⟩ := hall.queue
      rw [Queue.eq_of_unfinished hunfinished, hdone] at hq
      rw [hserial, hconcurrent]
      refine ⟨hall.result_conclude file, fun h => absurd htolerates h, fun _ => ⟨fun _ => ?_, ?_⟩⟩
      · rw [Course.session_conclude, Course.session_conclude]
        exact ⟨hall.free, hq⟩
      · -- without force nothing that is tolerated fails
        intro hforce k f hfails
        have herror := hall.tolerated _ (List.mem_of_getElem? hfails.fails)
        simp [Policy.Tolerates, hforce] at herror
    · rw [Course.unlessEnded_of_isSome (hstopped.same ▸ hstopped.ended)] at hserial
      rw [Course.unlessEnded_of_isSome hstopped.ended] at hconcurrent
      rw [hserial, hconcurrent]
      obtain ⟨g, hfirst⟩ := hstopped.failsFirst (back ++ later)
      rw [← hsplit] at hfirst
      refine ⟨hstopped.result_eq, fun h => absurd htolerates h, fun _ => ⟨fun hall => ?_, ?_⟩⟩
      · have herror := hall _ (List.mem_of_getElem? hfirst.fails)
        have hforce : p.force ≠ true := fun hforce => hstopped.refused (Or.inl hforce)
        simp [Policy.Tolerates, hforce] at herror
      · intro hforce k f hfails started behind
        obtain rfl : front.length = k := hfirst.eq hfails
        have htake : statements.take (front.length + 1) = front ++ [x] := by
          rw [hsplit, List.append_cons, List.take_left' (by simp)]
        have hdrop : statements.drop (front.length + 1) = back ++ later := by
          rw [hsplit, List.append_cons, List.drop_left' (by simp)]
        unfold started behind
        rw [htake, hdrop]
        refine ⟨hstopped.free, jobsOf p back, hstopped.queue, ?_, fun h => ?_⟩
        · rw [jobsOf_append]
          exact List.prefix_append ..
        · rw [hsilent h, List.append_nil]

end

def dropping (before : List Job) (job : Job) : Outcome :=
  if job.sql = "SELECT" ∧ before.any (·.sql = "DROP") then .error (.mysql "no such table")
  else .ok ()

def farewell : List Statement :=
  [⟨1, "SELECT", ";"⟩, ⟨2, "", ";"⟩, ⟨3, "DROP", ";"⟩, ⟨4, "", ";"⟩, ⟨5, "SELECT", ";"⟩,
    ⟨6, "", ";"⟩, ⟨7, "CREATE", ";"⟩]

theorem execute_concurrent_starts_as_serial_farewell :
    let s := Session.lock dropping fun _ => false
    let serial := execute s { unforgiving with mode := .serial } "a.sql" farewell ⟨[], none, []⟩
    let concurrent :=
      execute s { unforgiving with mode := .concurrent } "a.sql" farewell ⟨[], none, []⟩
    s.TakesTurns dropping Eq ∧ concurrent.result = serial.result ∧
    serial.session.done.map (·.sql) = ["SELECT", "DROP", "SELECT"] ∧
    concurrent.session.done.map (·.sql) = ["SELECT", "DROP", "SELECT"] ∧
    concurrent.session.waiting.map (·.sql) = ["CREATE"] := by
  intro s serial concurrent
  have hs : s.TakesTurns dropping Eq := Session.takesTurns_lock _ _
  obtain ⟨hresult, -, hall⟩ := execute_concurrent_starts_as_serial hs unforgiving "a.sql" farewell
    (rfl : (⟨[], none, []⟩ : Queue) = ⟨[], none, []⟩)
  have hfails : FailsFirst (outcomesBehind dropping unforgiving [] farewell) 4
      (.mysql "no such table") := by
    refine ⟨rfl, fun i hi => ?_⟩
    match i, hi with
    | 0, _ | 1, _ | 2, _ | 3, _ => rfl
  have hsilent : ∀ st job, (s.submit st job).outcome = none := by
    intro q job
    simp only [s, Session.lock]
    split <;> rfl
  obtain ⟨hserial, waiting, hconcurrent, -, hwaiting⟩ := (hall (Or.inr rfl)).2 rfl 4 _ hfails
  have hserial' : serial.session = _ := hserial
  have hconcurrent' : concurrent.session = _ := hconcurrent
  rw [hwaiting hsilent] at hconcurrent'
  rw [hserial', hconcurrent']
  exact ⟨hs, hresult, rfl, rfl, rfl⟩

end SqlBatch.Run
