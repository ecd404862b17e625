import SqlBatch.Proofs.Run.Beside
import SqlBatch.Proofs.Run.Lifecycle

/-! A sequence of scripts on connections that do not depend on each other is made of its scripts one
by one. Each of them does in the sequence what it does alone, whatever came before it and however
that ended; the first one that fails ends the sequence, and what stands behind it makes no
difference at all. -/

namespace SqlBatch.Run

/-- Asked for a connection, or to close one, the source does the same in whatever state it is, and
its connections are alike: they behave the same. -/
structure Provider.Independent {π σ : Type} (source : Provider π σ) (alike : σ → σ → Prop) :
    Prop where
  session : source.session.Respects alike
  connect : ∀ (st st' : π) (c : Config),
    (source.connect st c).events = (source.connect st' c).events
  refused : ∀ {st : π} (st' : π) {c : Config} {f : Failure},
    (source.connect st c).result = .error f → (source.connect st' c).result = .error f
  opened : ∀ {st : π} (st' : π) {c : Config} {connection : σ},
    (source.connect st c).result = .ok connection →
    ∃ connection', (source.connect st' c).result = .ok connection' ∧ alike connection connection'
  close : ∀ (st st' : π) {connection connection' : σ}, alike connection connection' →
    (source.close st connection).events = (source.close st' connection').events ∧
    (source.close st connection).result = (source.close st' connection').result

namespace Processor
variable {π σ : Type} {source : Provider π σ} {alike : σ → σ → Prop} (p : Processor)

section
variable (hsource : source.Independent alike)
include hsource

theorem process_of_independent (st st' : π) (b : Script.Buffer) :
    (p.process source st b).events = (p.process source st' b).events ∧
    (p.process source st b).result = (p.process source st' b).result := by
  have hconnect := hsource.connect st st' p.config
  cases hopen : (source.connect st p.config).result with
  | error f =>
    have hopen' := hsource.refused st' hopen
    simp [process, hopen, hopen', hconnect]
  | ok connection =>
    obtain ⟨connection', hopen', halike⟩ := hsource.opened st' hopen
    obtain ⟨htrace, hresult, hleft⟩ :=
      execute_of_alike hsource.session p.config.policy b.name b.statements halike
    obtain ⟨hevents, hclosed⟩ := hsource.close (source.connect st p.config).state
      (source.connect st' p.config).state (hsource.session.abandon hleft)
    simp only [process, hopen, hopen', hconnect, htrace, hresult, hevents, hclosed, and_self]

theorem processAll_of_succeeded (st : π) {scripts : List Script.Buffer} {reports : List Report}
    (h : scripts.map (fun b => (p.process source st b).result) = reports.map .ok) (st' : π) :
    (p.processAll source st' scripts).result = .ok reports ∧
    (p.processAll source st' scripts).events =
      scripts.flatMap fun b => (p.process source st b).events := by
  induction scripts generalizing reports st' with
  | nil =>
    obtain rfl : reports = [] := by simpa using h.symm
    exact ⟨rfl, rfl⟩
  | cons b bs ih =>
    cases reports with
    | nil => simp at h
    | cons r rs =>
      obtain ⟨hfirst, hrest⟩ := List.cons_eq_cons.1 h
      obtain ⟨hevents, hresult⟩ := p.process_of_independent hsource st st' b
      obtain ⟨hreports, htrace⟩ := ih hrest (p.process source st' b).state
      rw [processAll_of_ok bs (hresult.symm.trans hfirst), hreports, htrace, List.flatMap_cons, hevents]
      exact ⟨rfl, rfl⟩

theorem processAll_of_failed (st : π) {front : List Script.Buffer} {b : Script.Buffer}
    (rest : List Script.Buffer) {f : Failure}
    (hfront : ∀ x ∈ front, ∃ r, (p.process source st x).result = .ok r)
    (hfails : (p.process source st b).result = .error f) (st' : π) :
    (p.processAll source st' (front ++ b :: rest)).result = .error f ∧
    (p.processAll source st' (front ++ b :: rest)).events =
      (front ++ [b]).flatMap (fun x => (p.process source st x).events) ∧
    p.processAll source st' (front ++ b :: rest) = p.processAll source st' (front ++ [b]) := by
  induction front generalizing st' with
  | nil =>
    obtain ⟨hevents, hresult⟩ := p.process_of_independent hsource st st' b
    have hfails' := hresult.symm.trans hfails
    simp [processAll_of_error rest hfails', processAll_of_error [] hfails', hevents]
  | cons x xs ih =>
    obtain ⟨⟨r, hr⟩, hxs⟩ := List.forall_mem_cons.1 hfront
    obtain ⟨hevents, hresult⟩ := p.process_of_independent hsource st st' x
    obtain ⟨herror, htrace, hsame⟩ := ih hxs (p.process source st' x).state
    have hr' := hresult.symm.trans hr
    rw [List.cons_append, List.cons_append, processAll_of_ok _ hr', processAll_of_ok _ hr',
      List.flatMap_cons, hevents, herror, htrace, ← hsame, herror, htrace]
    exact ⟨rfl, rfl, rfl⟩

end

/-- A sequence does what its scripts do one by one, up to the first that fails. -/
theorem processAll_one_by_one (hsource : source.Independent alike) (st : π) :
    let alone (b : Script.Buffer) := p.process source st b
    (∀ scripts reports, scripts.map (fun b => (alone b).result) = reports.map .ok →
      (p.processAll source st scripts).result = .ok reports ∧
      (p.processAll source st scripts).events = scripts.flatMap fun b => (alone b).events) ∧
    (∀ front b rest f, (∀ x ∈ front, ∃ r, (alone x).result = .ok r) →
      (alone b).result = .error f →
      (p.processAll source st (front ++ b :: rest)).result = .error f ∧
      (p.processAll source st (front ++ b :: rest)).events =
        (front ++ [b]).flatMap (fun x => (alone x).events) ∧
      p.processAll source st (front ++ b :: rest) = p.processAll source st (front ++ [b])) ∧
    ∀ earlier b,
      let behind := p.process source (p.processAll source st earlier).state b
      behind.events = (alone b).events ∧ behind.result = (alone b).result ∧
      behind.events.head? = some (.log (.tokenized b.name
        (Script.tokenize b.text Statement.defaultDelimiter).length)) := by
  intro alone
  refine ⟨fun scripts reports h => p.processAll_of_succeeded hsource st h st,
    fun front b rest f hfront hfails => p.processAll_of_failed hsource st rest hfront hfails st,
    fun earlier b => ?_⟩
  obtain ⟨hevents, hresult⟩ :=
    p.process_of_independent hsource (p.processAll source st earlier).state st b
  refine ⟨hevents, hresult, ?_⟩
  unfold process
  simp only
  split <;> rfl

end Processor

/-- Connections that are all accepted and can all be closed differ in their numbers alone. -/
def obliging : Provider Nat Session.Rehearsal.Connection := Session.Rehearsal.provider {}

theorem obliging_independent : obliging.Independent fun x y => x.database = y.database where
  session :=
    { backend := fun h => congrArg Session.Virtual.State.backend h
      submit := by
        rintro ⟨_, database⟩ ⟨_, _⟩ job rfl
        exact ⟨rfl, rfl, rfl⟩
      next? := by
        rintro ⟨_, database⟩ ⟨_, _⟩ rfl
        simp only [obliging, Session.Rehearsal.provider, Session.Rehearsal.session]
        cases Session.Virtual.next? database with
        | none => exact .none
        | some a => exact .some ⟨rfl, rfl, rfl, rfl⟩
      abandon := fun h => congrArg Session.Virtual.abandon h }
  connect := fun _ _ _ => rfl
  refused := by
    intro asked asked' c f h
    simp [obliging, Session.Rehearsal.provider, Session.Rehearsal.connect] at h
  opened := by
    intro asked asked' c connection h
    simp only [obliging, Session.Rehearsal.provider, Session.Rehearsal.connect,
      List.contains_nil, Bool.false_eq_true, if_false, Except.ok.injEq] at h ⊢
    exact ⟨_, rfl, by rw [← h]⟩
  close := fun _ _ _ _ _ => ⟨rfl, rfl⟩

def unclosed : Script.Buffer := ⟨"a.sql", "DELIMITER $$\nSELECT 1$$ SELECT 'open"⟩

def faulty : Script.Buffer := ⟨"b.sql", "SELECT 2; FAIL; SELECT 3"⟩

theorem Processor.processAll_one_by_one_unclosed :
    obliging.Independent (fun x y => x.database = y.database) ∧
    (∀ x ∈ [unclosed], ∃ r, (strict.process obliging 0 x).result = .ok r) ∧
    ∃ f, (strict.process obliging 0 faulty).result = .error f ∧ f.isStatementFailure = true ∧
      (strict.processAll obliging 0 (unclosed :: faulty :: nightly)).result = .error f ∧
      (strict.processAll obliging 0 (unclosed :: faulty :: nightly)).events =
        (strict.process obliging 0 unclosed).events ++ (strict.process obliging 0 faulty).events ∧
      strict.processAll obliging 0 (unclosed :: faulty :: nightly) =
        strict.processAll obliging 0 [unclosed, faulty] := by
  have hok : (strict.process obliging 0 unclosed).result.isOk = true := by decide +kernel
  have hfailure : (match (strict.process obliging 0 faulty).result with
      | .ok _ => false
      | .error f => f.isStatementFailure) = true := by
    decide +kernel
  have hfront : ∀ x ∈ [unclosed], ∃ r, (strict.process obliging 0 x).result = .ok r := by
    intro x hx
    rw [List.mem_singleton.1 hx]
    cases hresult : (strict.process obliging 0 unclosed).result with
    | error f => rw [hresult] at hok; contradiction
    | ok r => exact ⟨r, rfl⟩
  obtain ⟨-, hfailed, -⟩ := strict.processAll_one_by_one obliging_independent 0
  cases hfails : (strict.process obliging 0 faulty).result with
  | ok r =>
    rw [hfails] at hfailure
    contradiction
  | error f =>
    rw [hfails] at hfailure
    obtain ⟨hresult, hevents, hsame⟩ := hfailed [unclosed] faulty nightly f hfront hfails
    refine ⟨obliging_independent, hfront, f, rfl, hfailure, hresult, ?_, hsame⟩
    simpa using hevents

end SqlBatch.Run
