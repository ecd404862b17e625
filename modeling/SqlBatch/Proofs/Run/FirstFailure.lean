import SqlBatch.Proofs.Run.Moves
import SqlBatch.Proofs.Session.Virtual

/-! Runs with and without force. Up to the first failure the two are one and the same. The run
without force ends where that failure is noted, and returns it; the forced run goes on from there,
and what it does later takes nothing back: its trace only grows, and the failure stays in its
report. -/

namespace SqlBatch

def Policy.withForce (p : Policy) (force : Bool) : Policy := { p with force := force }

@[simp] theorem Policy.force_withForce (p : Policy) (force : Bool) :
    (p.withForce force).force = force := rfl

@[simp] theorem Policy.mode_withForce (p : Policy) (force : Bool) :
    (p.withForce force).mode = p.mode := rfl

@[simp] theorem Policy.timeout_withForce (p : Policy) (force : Bool) :
    (p.withForce force).timeout = p.timeout := rfl

@[simp] theorem Policy.database_withForce (p : Policy) (force : Bool) :
    (p.withForce force).database = p.database := rfl

theorem Policy.withForce_eq {p : Policy} {force : Bool} (h : p.force = force) :
    p.withForce force = p := by
  rw [← h]
  rfl

namespace Run

/-- The report has kept the failure that a note told, and `f` is what a run without force makes of
it. -/
inductive Report.Keeps (r : Report) (p : Policy) (file : String) : Note → Failure → Prop
  | switch {database message : String} : p.database = some database →
      r.databaseError = some message →
      r.Keeps p file (.switchFailed message) (.useDatabase database message)
  | statement {index : Nat} {message : String} : ⟨index, message⟩ ∈ r.failures →
      r.Keeps p file (.statementFailed file index message) (.statement file index message)

namespace Course
variable {σ : Type}

theorem progress_withForce (c : Course σ) (p : Policy) (force : Bool) (v : Verbosity) (n : Note) :
    c.progress (p.withForce force) v n = c.progress p v n := rfl

/-- What was noted and what was reported stays. -/
structure GoesOn (c c' : Course σ) : Prop where
  ended : c'.ended = c.ended
  trace : c.trace.toList <+: c'.trace.toList
  failures : c.report.failures ⊆ c'.report.failures
  databaseError : ∀ message ∈ c.report.databaseError, c'.report.databaseError = some message

namespace GoesOn
variable {c c' c'' : Course σ}

theorem refl (c : Course σ) : GoesOn c c :=
  ⟨rfl, List.prefix_rfl, List.Subset.refl _, fun _ h => h⟩

theorem trans (h : GoesOn c c') (h' : GoesOn c' c'') : GoesOn c c'' where
  ended := h'.ended.trans h.ended
  trace := h.trace.trans h'.trace
  failures := List.Subset.trans h.failures h'.failures
  databaseError := fun message hm => h'.databaseError message (h.databaseError message hm)

theorem of_trace (hended : c'.ended = c.ended) (hreport : c'.report = c.report)
    (htrace : c.trace.toList <+: c'.trace.toList) : GoesOn c c' := by
  refine ⟨hended, htrace, ?_, fun message hm => ?_⟩
  · rw [hreport]
    exact List.Subset.refl _
  · rw [hreport]
    exact hm

theorem note (c : Course σ) (n : Note) : GoesOn c (c.note n) :=
  of_trace rfl rfl ⟨[.log n], by simp [Course.note]⟩

theorem observe (c : Course σ) (st : σ) (events : List Event) :
    GoesOn c (Course.observe { c with session := st } events) :=
  of_trace rfl rfl ⟨events, by simp [Course.observe]⟩

theorem progress (c : Course σ) (p : Policy) (v : Verbosity) (n : Note) :
    GoesOn c (c.progress p v n) := by
  unfold Course.progress
  split
  · exact note c n
  · exact refl c

theorem settle {p : Policy} (hforce : p.force = true) (c : Course σ) (file : String)
    (index : Nat) (o : Outcome) : GoesOn c (c.settle p file index o) := by
  unfold Course.settle
  cases o with
  | ok =>
    have hcounted : GoesOn c { c with report := c.report.countSuccess } :=
      ⟨rfl, List.prefix_rfl, List.Subset.refl _, fun _ h => h⟩
    exact hcounted.trans (progress ..)
  | error f =>
    have hadded (c : Course σ) (failure : StatementFailure) :
        GoesOn c { c with report := c.report.addFailure failure } :=
      ⟨rfl, List.prefix_rfl, List.subset_append_left .., fun _ h => h⟩
    simp only [if_pos hforce]
    exact (note c _).trans (hadded (c.note _) _)

end GoesOn

theorem Moves.goesOn {s : Session σ} {p : Policy} {file : String} {jobs : List Job}
    {c c' : Course σ} (hforce : p.force = true) (h : Moves s p file jobs c c') : GoesOn c c' := by
  induction h with
  | refl c => exact .refl c
  | trans _ _ ih ih' => exact ih.trans ih'
  | note c n => exact .note c n
  | count c n => exact ⟨rfl, List.prefix_rfl, List.Subset.refl _, fun _ h => h⟩
  | settle c index o => exact .settle hforce c file index o
  | ask c job => exact .observe c _ _
  | submit c job => exact .observe c _ _
  | answer c a => exact .observe c _ _
  | keep c message hnone =>
    -- there is no earlier one that could be lost
    refine ⟨rfl, List.prefix_rfl, List.Subset.refl _, fun message' h => ?_⟩
    rw [hnone] at h
    contradiction
  | refuse c f hnot =>
    rw [hforce] at hnot
    contradiction
  | sort c =>
    refine ⟨rfl, List.prefix_rfl, fun failure h => ?_, fun _ h => h⟩
    exact (List.mergeSort_perm c.report.failures _).mem_iff.2 h

theorem GoesOn.keeps {c c' : Course σ} (h : GoesOn c c') {p : Policy} {file : String} {n : Note}
    {f : Failure} (hkeeps : c.report.Keeps p file n f) : c'.report.Keeps p file n f := by
  cases hkeeps with
  | switch hdatabase herror => exact .switch hdatabase (h.databaseError _ herror)
  | statement hmem => exact .statement (h.failures hmem)

/-- Nothing has failed so far. -/
structure Untroubled (c : Course σ) : Prop where
  ended : c.ended = none
  calm : Calm c.trace.toList

namespace Untroubled
variable {c : Course σ}

theorem note (h : c.Untroubled) {n : Note} (hn : (Event.log n).isError = false) :
    (c.note n).Untroubled := by
  refine ⟨h.ended, ?_⟩
  rw [Course.note, Array.toList_push]
  exact calm_append.2 ⟨h.calm, calm_singleton.2 hn⟩

theorem progress (h : c.Untroubled) (p : Policy) (v : Verbosity) {n : Note}
    (hn : (Event.log n).isError = false) : (c.progress p v n).Untroubled := by
  unfold Course.progress
  split
  · exact h.note hn
  · exact h

theorem announce (h : c.Untroubled) (p : Policy) (file : String) (x : Statement) :
    (c.announce p file x).Untroubled := by
  unfold Course.announce announcement?
  cases p.verbosity with
  | none => exact h
  | summary => exact h
  | statements => exact h.note rfl
  | full => exact h.note rfl

theorem announce_all (h : c.Untroubled) (p : Policy) (file : String)
    (statements : List Statement) :
    (statements.foldl (fun c x => c.announce p file x) c).Untroubled := by
  induction statements generalizing c with
  | nil => exact h
  | cons x xs ih => exact ih (h.announce p file x)

theorem observe (h : c.Untroubled) (st : σ) {events : List Event} (hcalm : Calm events) :
    (Course.observe { c with session := st } events).Untroubled := by
  refine ⟨h.ended, ?_⟩
  have htrace : (Course.observe { c with session := st } events).trace.toList =
      c.trace.toList ++ events := by
    simp [Course.observe]
  rw [htrace]
  exact calm_append.2 ⟨h.calm, hcalm⟩

theorem settle_ok (h : c.Untroubled) (p : Policy) (file : String) (index : Nat) :
    (c.settle p file index (.ok ())).Untroubled := by
  have hcounted : Untroubled { c with report := c.report.countSuccess } := ⟨h.ended, h.calm⟩
  exact hcounted.progress p .statements rfl

end Untroubled

/-- `c` ended at its first failure, which it told with the note `n` and returns as `f`; `d` has gone
on from there. -/
structure Apart (p : Policy) (file : String) (c d : Course σ) (front : List Event) (sql : String)
    (n : Note) (f : Failure) : Prop where
  calm : Calm front
  isError : (Event.log n).isError = true
  trace : c.trace.toList = front ++ [.done sql false, .log n]
  ended : c.ended = some f
  unended : d.ended = none
  ahead : c.trace.toList <+: d.trace.toList
  keeps : d.report.Keeps p file n f

/-- How a run without force stands beside the forced run. -/
inductive Parts (p : Policy) (file : String) : Course σ → Course σ → Prop
  | together {c : Course σ} : c.Untroubled → Parts p file c c
  | apart {c d : Course σ} {front : List Event} {sql : String} {n : Note} {f : Failure} :
      Apart p file c d front sql n f → Parts p file c d

section
variable {p : Policy} {file : String} {c d : Course σ}

theorem Apart.goesOn {d' : Course σ} {front : List Event} {sql : String} {n : Note} {f : Failure}
    (h : Apart p file c d front sql n f) (hd : GoesOn d d') :
    Apart p file c d' front sql n f where
  calm := h.calm
  isError := h.isError
  trace := h.trace
  ended := h.ended
  unended := hd.ended.trans h.unended
  ahead := h.ahead.trans hd.trace
  keeps := hd.keeps h.keeps

theorem Parts.unlessEnded {f g : Course σ → Course σ} (h : Parts p file c d)
    (hboth : ∀ {c : Course σ}, c.Untroubled → Parts p file (f c) (g c))
    (hon : ∀ d, GoesOn d (g d)) : Parts p file (c.unlessEnded f) (d.unlessEnded g) := by
  cases h with
  | together hc =>
    rw [unlessEnded_of_none hc.ended, unlessEnded_of_none hc.ended]
    exact hboth hc
  | apart h =>
    have hended : c.ended.isSome = true := by rw [h.ended]; rfl
    rw [unlessEnded_of_isSome hended, unlessEnded_of_none h.unended]
    exact .apart (h.goesOn (hon d))

theorem Parts.foldl {f g : Course σ → Statement → Course σ}
    (hboth : ∀ {c : Course σ} (x : Statement), c.Untroubled → Parts p file (f c x) (g c x))
    (hon : ∀ d x, GoesOn d (g d x)) (statements : List Statement) (h : Parts p file c d) :
    Parts p file (statements.foldl (fun c x => c.unlessEnded fun c => f c x) c)
      (statements.foldl (fun d x => d.unlessEnded fun d => g d x) d) := by
  induction statements generalizing c d with
  | nil => exact h
  | cons x xs ih =>
    apply ih
    exact h.unlessEnded (hboth x) fun d => hon d x

theorem Parts.of_failure (h : c.Untroubled) (st : σ) {events : List Event} {e : Failure}
    (htells : Tells events (.error e)) {n : Note} (hn : (Event.log n).isError = true)
    {f : Failure} {r : Report} (hkeeps : r.Keeps p file n f) :
    Parts p file { (observe { c with session := st } events).note n with ended := some f }
      { (observe { c with session := st } events).note n with report := r } := by
  obtain ⟨front, sql, rfl, hfront⟩ := htells
  have htrace : ((observe { c with session := st }
      (front ++ [.done sql (Except.isOk (.error e : Outcome))])).note n).trace.toList =
        c.trace.toList ++ front ++ [.done sql false, .log n] := by
    simp [Course.note, observe, Except.isOk, Except.toBool]
  exact .apart ⟨calm_append.2 ⟨h.calm, hfront⟩, hn, htrace, rfl, h.ended, List.prefix_rfl, hkeeps⟩

theorem Parts.settle (h : c.Untroubled) (st : σ) {events : List Event} {o : Outcome}
    (htells : Tells events o) (index : Nat) :
    Parts p file
      ((observe { c with session := st } events).settle (p.withForce false) file index o)
      ((observe { c with session := st } events).settle (p.withForce true) file index o) := by
  cases o with
  | ok => exact .together ((h.observe st htells.calm).settle_ok _ file index)
  | error e =>
    have hmem : ⟨index, e.message⟩ ∈ (c.report.addFailure ⟨index, e.message⟩).failures :=
      List.mem_append_right _ List.mem_cons_self
    exact .of_failure h st htells rfl (.statement hmem)

theorem Parts.skipBlank (h : c.Untroubled) (x : Statement) :
    Parts p file (c.skipBlank (p.withForce false) file x)
      (c.skipBlank (p.withForce true) file x) := by
  have hnoted : (c.note (.skippingBlank x.index)).Untroubled := h.note rfl
  exact .together (hnoted.settle_ok _ file x.index)

end

section
variable {s : Session σ} {p : Policy} {file : String} {c d : Course σ}

theorem Parts.runSerial (hs : s.Candid) (h : c.Untroubled) (x : Statement) :
    Parts p file (c.runSerial s (p.withForce false) file x)
      (c.runSerial s (p.withForce true) file x) := by
  have hannounced := h.announce p file x
  have hstarted : ((c.announce p file x).countAttempts 1).Untroubled :=
    ⟨hannounced.ended, hannounced.calm⟩
  unfold Course.runSerial
  cases hx : x.isEmpty with
  | true => exact .skipBlank hstarted x
  | false => exact .settle hstarted _ (hs.ask _ (jobOf p x)) x.index

theorem Parts.handOver (hs : s.Candid) (h : c.Untroubled) (x : Statement) :
    Parts p file (c.handOver s (p.withForce false) file x)
      (c.handOver s (p.withForce true) file x) := by
  cases hx : x.isEmpty with
  | true =>
    rw [handOver_of_isEmpty file hx, handOver_of_isEmpty file hx]
    exact .skipBlank h x
  | false =>
    -- the job is the same with force and without
    cases houtcome : (s.submit c.session (jobOf p x)).outcome with
    | some o =>
      rw [handOver_of_outcome (p := p.withForce false) file hx houtcome,
        handOver_of_outcome (p := p.withForce true) file hx houtcome]
      exact .settle h _ (hs.submit_some houtcome) x.index
    | none =>
      rw [handOver_of_silence (p := p.withForce false) file hx houtcome,
        handOver_of_silence (p := p.withForce true) file hx houtcome]
      exact .together (h.observe _ (hs.submit_none houtcome).1)

theorem Parts.drain (hs : s.Candid) (hmode : p.mode = .concurrent) (n : Nat)
    (h : Parts p file c d) :
    Parts p file (c.drain s (p.withForce false) file n)
      (d.drain s (p.withForce true) file n) := by
  induction n generalizing c d with
  | zero => exact h
  | succ n ih =>
    cases h with
    | apart h =>
      have hended : c.ended.isSome = true := by rw [h.ended]; rfl
      have hmoves : Moves s (p.withForce true) file [] d
          (d.drain s (p.withForce true) file (n + 1)) :=
        .drain s file d (p.mode_withForce true ▸ hmode) (n + 1)
      rw [drain_of_isSome file hended]
      exact .apart (h.goesOn (hmoves.goesOn rfl))
    | together h =>
      have hended : ¬c.ended.isSome = true := by simp [h.ended]
      unfold Course.drain
      rw [if_neg hended, if_neg hended]
      cases hnext : s.next? c.session with
      | none => exact .together h
      | some a => exact ih (.settle h a.session (hs.next?_some hnext) a.index)

theorem Parts.runStatements (hs : s.Candid) (h : c.Untroubled) (statements : List Statement) :
    Parts p file (c.runStatements s (p.withForce false) file statements)
      (c.runStatements s (p.withForce true) file statements) := by
  unfold Course.runStatements
  rw [Policy.mode_withForce, Policy.mode_withForce]
  cases hmode : p.mode with
  | serial =>
    exact Parts.foldl (fun x hc => .runSerial hs hc x)
      (fun d x => (Moves.runSerial s _ file d x).goesOn rfl) statements (.together h)
  | concurrent =>
    have hannounced := h.announce_all p file statements
    have hstarted : ((statements.foldl (fun c x => c.announce p file x) c).countAttempts
        statements.length).Untroubled := ⟨hannounced.ended, hannounced.calm⟩
    have hhanded := Parts.foldl (fun x hc => .handOver hs hc x)
      (fun d x => (Moves.handOver s file d (p.mode_withForce true ▸ hmode) x).goesOn rfl)
      statements (.together hstarted)
    exact hhanded.drain hs hmode statements.length

theorem Parts.selectDatabase (hs : s.Candid) (h : c.Untroubled) :
    Parts p file (c.selectDatabase s (p.withForce false))
      (c.selectDatabase s (p.withForce true)) := by
  unfold Course.selectDatabase
  rw [Policy.database_withForce, Policy.database_withForce]
  cases hdatabase : p.database with
  | none => exact .together h
  | some database =>
    cases hsql : (s.backend c.session).useDatabase? database with
    | none => simpa only [hsql] using! Parts.together (h.note rfl)
    | some sql =>
      have hannounced : (c.progress p .statements (.settingDatabase database)).Untroubled :=
        h.progress p .statements rfl
      simp only [hsql, progress_withForce, Policy.force_withForce, Policy.timeout_withForce]
      generalize c.progress p .statements (.settingDatabase database) = c at hannounced ⊢
      have htells := hs.ask c.session ⟨0, sql, p.timeout⟩
      cases houtcome : (s.ask c.session ⟨0, sql, p.timeout⟩).outcome with
      | ok =>
        have hasked := hannounced.observe (s.ask c.session ⟨0, sql, p.timeout⟩).session htells.calm
        simp only [Course.ask, houtcome]
        exact .together (hasked.progress p .statements rfl)
      | error e =>
        rw [houtcome] at htells
        simp only [Course.ask, houtcome]
        exact .of_failure hannounced _ htells rfl (.switch hdatabase rfl)

theorem Parts.execute (hs : s.Candid) (p : Policy) (file : String) (statements : List Statement)
    (st : σ) : Parts p file (execute s (p.withForce false) file statements st)
      (execute s (p.withForce true) file statements st) := by
  have hfresh : Untroubled { session := st, report := { file := file } } := ⟨rfl, calm_nil⟩
  have hstarted : (start p file st).Untroubled := hfresh.progress p .summary rfl
  have hswitched : Parts p file ((start p file st).selectDatabase s (p.withForce false))
      ((start p file st).selectDatabase s (p.withForce true)) := .selectDatabase hs hstarted
  have hran := hswitched.unlessEnded (fun hc => .runStatements hs hc statements) fun d => by
    obtain ⟨jobs, -, hmoves, -⟩ := Moves.runStatements s (p.withForce true) file d statements
    exact hmoves.goesOn rfl
  refine hran.unlessEnded (fun {c} hc => ?_) fun d => (Moves.conclude s _ file d).goesOn rfl
  have hsorted : Untroubled { c with report := c.report.sorted } := ⟨hc.ended, hc.calm⟩
  exact .together (hsorted.progress p .summary rfl)

theorem ended_execute_of_force (hforce : p.force = true) (statements : List Statement) (st : σ) :
    (Run.execute s p file statements st).ended = none := by
  obtain ⟨taken, -, hmoves, -⟩ := moves_execute s p file statements st
  exact (hmoves.goesOn hforce).ended

theorem ended_execute_of_unhurt (hs : s.Candid) (statements : List Statement) (st : σ)
    (hunhurt : ∀ sql, .done sql false ∉ (Run.execute s p file statements st).trace) :
    (Run.execute s p file statements st).ended = none := by
  cases hforce : p.force with
  | true => exact ended_execute_of_force hforce statements st
  | false =>
    have hparts := Parts.execute hs p file statements st
    rw [Policy.withForce_eq hforce] at hparts
    generalize Run.execute s p file statements st = c at hunhurt hparts
    generalize Run.execute s (p.withForce true) file statements st = d at hparts
    cases hparts with
    | together h => exact h.ended
    | @apart _ front sql n f h =>
      have hmem : .done sql false ∈ c.trace.toList := by
        rw [h.trace]
        exact List.mem_append_right _ List.mem_cons_self
      exact absurd (Array.mem_toList_iff.1 hmem) (hunhurt sql)

end
end Course

/-- Without force a run is the forced run up to and with its first error, and it returns the failure
that the forced run keeps in its report. -/
theorem execute_cut_at_first_error (p : Policy) (file : String) (statements : List Statement)
    (st : Session.Virtual.State) :
    let strict := execute Session.Virtual.session (p.withForce false) file statements st
    let forced := execute Session.Virtual.session (p.withForce true) file statements st
    (Calm forced.trace.toList ∧ strict.trace = forced.trace ∧ strict.result = forced.result) ∨
      ∃ front n rest f r, Calm front ∧ n.level = .error ∧
        forced.trace.toList = front ++ .log n :: rest ∧
        strict.trace.toList = front ++ [.log n] ∧
        strict.result = .error f ∧ forced.result = .ok r ∧ r.Keeps p file n f := by
  intro strict forced
  have hparts : Course.Parts p file strict forced :=
    .execute Session.Virtual.candid p file statements st
  clear_value strict forced
  cases hparts with
  | together h => exact Or.inl ⟨h.calm, rfl, rfl⟩
  | @apart _ front sql n f h =>
    obtain ⟨rest, hrest⟩ := h.ahead
    rw [h.trace] at hrest
    refine Or.inr ⟨front ++ [.done sql false], n, rest, f, forced.report, ?_, ?_, ?_, ?_, ?_, ?_,
      h.keeps⟩
    · exact calm_append.2 ⟨h.calm, calm_singleton.2 rfl⟩
    · simpa [Event.isError] using h.isError
    · simpa using hrest.symm
    · simpa using h.trace
    · simp [Course.result, h.ended]
    · exact Course.result_eq_ok.2 ⟨h.unended, rfl⟩

end Run
end SqlBatch
