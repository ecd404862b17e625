import Mathlib.Data.List.Chain
import SqlBatch.Proofs.Run.Recorder
import SqlBatch.Proofs.Session.Rehearsal
import SqlBatch.Session.Live

/-! The connections of a sequence of scripts. The record of a sequence is a sequence of brackets, one
for each script that was started: its connection is asked for, its statements are worked on, and the
connection is closed, whatever became of the statements. If the connection is refused, nothing
follows. So a connection is closed before the next one is asked for, and what a run leaves
unfinished is never completed. -/

namespace SqlBatch.Run

/-- A script that was started, and the state of the source at that time. -/
structure Visit (π : Type) where
  before : π
  script : Script.Buffer

namespace Visit
variable {π σ : Type} (v : Visit π) (p : Processor) (source : Provider π σ)

def opened : Attempt π σ := source.connect v.before p.config

def course (connection : σ) : Course σ :=
  execute source.session p.config.policy v.script.name v.script.statements connection

/-- The connection as it is closed. -/
def left (connection : σ) : σ := source.session.abandon (v.course p source connection).session

def closed (connection : σ) : Attempt π Unit :=
  source.close (v.opened p source).state (v.left p source connection)

def attempt : Attempt π Report := p.process source v.before v.script

@[simp] theorem attempt_mk (st : π) (b : Script.Buffer) :
    (mk st b).attempt p source = p.process source st b := rfl

/-- The record of a script is a bracket, nothing is open when its connection is closed, and its
result is that of the first action of the bracket that failed. -/
structure IsBracket (pending : σ → Multiset String) : Prop where
  refused : ∀ {f : Failure}, (v.opened p source).result = .error f →
    record (v.attempt p source).events = [connecting p.config] ∧
    (v.attempt p source).result = .error f
  opened : ∀ {connection : σ}, (v.opened p source).result = .ok connection →
    ∃ jobs unfinished work,
      record (v.attempt p source).events = connecting p.config :: (work ++ [.close]) ∧
      Work jobs unfinished work ∧
      jobs <+: agenda source.session p.config.policy connection v.script.statements ∧
      ∀ r, (v.course p source connection).result = .ok r →
        jobs = agenda source.session p.config.policy connection v.script.statements
  dropped : ∀ {connection : σ}, (v.opened p source).result = .ok connection →
    pending (v.left p source connection) = 0
  run_failed : ∀ {connection : σ} {f : Failure}, (v.opened p source).result = .ok connection →
    (v.course p source connection).result = .error f → (v.attempt p source).result = .error f
  close_failed : ∀ {connection : σ} {r : Report} {f : Failure},
    (v.opened p source).result = .ok connection →
    (v.course p source connection).result = .ok r →
    (v.closed p source connection).result = .error f → (v.attempt p source).result = .error f
  succeeded : ∀ {connection : σ} {r : Report}, (v.opened p source).result = .ok connection →
    (v.course p source connection).result = .ok r →
    (v.closed p source connection).result = .ok () → (v.attempt p source).result = .ok r

variable {v p source}

theorem attempt_of_refused {f : Failure} (h : (v.opened p source).result = .error f) :
    v.attempt p source = ⟨.log (.tokenized v.script.name v.script.statements.length) ::
      (v.opened p source).events, .error f, (v.opened p source).state⟩ := by
  unfold opened at h ⊢
  simp [attempt, Processor.process, h]

theorem attempt_of_opened {connection : σ} (h : (v.opened p source).result = .ok connection) :
    v.attempt p source = ⟨.log (.tokenized v.script.name v.script.statements.length) ::
      ((v.opened p source).events ++ (v.course p source connection).trace.toList ++
        (v.closed p source connection).events),
      Processor.settleClose (v.course p source connection).result
        (v.closed p source connection).result,
      (v.closed p source connection).state⟩ := by
  unfold closed left course opened at *
  simp [attempt, Processor.process, h]

theorem isBracket {pending : σ → Multiset String} (hsource : source.Records pending) :
    v.IsBracket p source pending where
  refused := by
    intro f hopen
    rw [attempt_of_refused hopen, record_log, opened, hsource.connect]
    exact ⟨rfl, rfl⟩
  opened := by
    intro connection hopen
    obtain ⟨jobs, hprefix, hworks, hall⟩ := works_execute hsource.session p.config.policy
      v.script.name v.script.statements (hsource.fresh hopen)
    -- the trace of the run is the middle part of the events, whatever its result
    refine ⟨jobs, _, _, ?_, hworks, hprefix, hall⟩
    rw [attempt_of_opened hopen, record_log, record_append, record_append, closed,
      hsource.close, opened, hsource.connect]
    rfl
  dropped := fun _ => hsource.session.abandon _
  run_failed := by
    intro connection f hopen hrun
    rw [attempt_of_opened hopen, hrun]
    rfl
  close_failed := by
    intro connection r f hopen hrun hclose
    rw [attempt_of_opened hopen, hrun, hclose]
    rfl
  succeeded := by
    intro connection r hopen hrun hclose
    rw [attempt_of_opened hopen, hrun, hclose]
    rfl

end Visit

namespace Processor
variable {π σ : Type} {source : Provider π σ} {p : Processor} {st : π} {b : Script.Buffer}
  (bs : List Script.Buffer)

theorem processAll_of_error {f : Failure} (h : (p.process source st b).result = .error f) :
    p.processAll source st (b :: bs) =
      ⟨(p.process source st b).events, .error f, (p.process source st b).state⟩ := by
  simp [processAll, h]

theorem processAll_of_ok {r : Report} (h : (p.process source st b).result = .ok r) :
    p.processAll source st (b :: bs) =
      ⟨(p.process source st b).events ++
          (p.processAll source (p.process source st b).state bs).events,
        (p.processAll source (p.process source st b).state bs).result.map (r :: ·),
        (p.processAll source (p.process source st b).state bs).state⟩ := by
  simp [processAll, h]

/-- `visits` are the scripts that were started, one after the other from the first on. The next one
is started when the one before has succeeded, where it has left the source. -/
structure Visits (p : Processor) (source : Provider π σ) (pending : σ → Multiset String) (st : π)
    (scripts : List Script.Buffer) (visits : List (Visit π)) : Prop where
  started : visits.map Visit.script <+: scripts
  first : ∀ v ∈ visits.head?, v.before = st
  chain : visits.IsChain fun v w => (∃ r, (v.attempt p source).result = .ok r) ∧
    w.before = (v.attempt p source).state
  recorded : record (p.processAll source st scripts).events =
    visits.flatMap fun v => record (v.attempt p source).events
  brackets : ∀ v ∈ visits, v.IsBracket p source pending
  completed : ∀ reports, (p.processAll source st scripts).result = .ok reports →
    visits.map Visit.script = scripts ∧
    visits.map (fun v => (v.attempt p source).result) = reports.map .ok
  failed : ∀ f, (p.processAll source st scripts).result = .error f →
    ∃ v ∈ visits.getLast?, (v.attempt p source).result = .error f

theorem Visits.nil {pending : σ → Multiset String} : Visits p source pending st [] [] where
  started := List.prefix_rfl
  first := by simp
  chain := List.isChain_nil
  recorded := rfl
  brackets := by simp
  completed := by
    intro reports hok
    obtain rfl : [] = reports := Except.ok.inj hok
    exact ⟨rfl, rfl⟩
  failed := by
    intro f herror
    contradiction

section
variable {pending : σ → Multiset String} (hsource : source.Records pending)
include hsource

theorem Visits.halt {f : Failure} (h : (p.process source st b).result = .error f) :
    Visits p source pending st (b :: bs) [⟨st, b⟩] where
  started := by simp
  first := by simp
  chain := List.isChain_singleton _
  recorded := by simp [processAll_of_error bs h]
  brackets := by simpa using Visit.isBracket hsource
  completed := by
    intro reports hok
    rw [processAll_of_error bs h] at hok
    contradiction
  failed := by
    intro g herror
    rw [processAll_of_error bs h] at herror
    obtain rfl : f = g := Except.error.inj herror
    exact ⟨⟨st, b⟩, rfl, h⟩

theorem Visits.cons {r : Report} {visits : List (Visit π)}
    (h : (p.process source st b).result = .ok r)
    (hrest : Visits p source pending (p.process source st b).state bs visits) :
    Visits p source pending st (b :: bs) (⟨st, b⟩ :: visits) where
  started := (List.prefix_cons_inj b).2 hrest.started
  first := by simp
  chain := List.isChain_cons.2 ⟨fun w hw => ⟨⟨r, h⟩, hrest.first w hw⟩, hrest.chain⟩
  recorded := by simp [processAll_of_ok bs h, hrest.recorded]
  brackets := List.forall_mem_cons.2 ⟨Visit.isBracket hsource, hrest.brackets⟩
  completed := by
    intro reports hok
    rw [processAll_of_ok bs h] at hok
    cases hresult : (p.processAll source (p.process source st b).state bs).result with
    | error f => simp [hresult, Except.map] at hok
    | ok rest =>
      obtain ⟨hscripts, hresults⟩ := hrest.completed rest hresult
      rw [hresult] at hok
      obtain rfl : r :: rest = reports := Except.ok.inj hok
      simp [hscripts, hresults, h]
  failed := by
    intro f herror
    rw [processAll_of_ok bs h] at herror
    cases hresult : (p.processAll source (p.process source st b).state bs).result with
    | ok rest => simp [hresult, Except.map] at herror
    | error g =>
      obtain ⟨v, hlast, hv⟩ := hrest.failed g hresult
      rw [hresult] at herror
      obtain rfl : g = f := Except.error.inj herror
      rw [Option.mem_def] at hlast
      exact ⟨v, by simp [List.getLast?_cons, hlast], hv⟩

theorem exists_visits (p : Processor) (st : π) (scripts : List Script.Buffer) :
    ∃ visits, Visits p source pending st scripts visits := by
  -- along the recursion of the sequence, from the state that the first script leaves
  induction scripts generalizing st with
  | nil => exact ⟨[], .nil⟩
  | cons b bs ih =>
    cases hresult : (p.process source st b).result with
    | error f => exact ⟨_, .halt bs hsource hresult⟩
    | ok r =>
      obtain ⟨visits, hrest⟩ := ih (p.process source st b).state
      exact ⟨_, hrest.cons bs hsource hresult⟩

end
end Processor

def strict : Processor where
  config := { username := some "u", password := some "p", force := false }
  valid := rfl

def stubborn : Provider Nat Session.Rehearsal.Connection :=
  Session.Rehearsal.provider { failToClose := [2] }

def nightly : List Script.Buffer :=
  [⟨"a.sql", "SELECT 1;"⟩, ⟨"b.sql", "SLEEP 30; FAIL;"⟩, ⟨"c.sql", "SELECT 2;"⟩]

/-- A MySQL server, with a record kept of the connections to it. -/
def attended : Provider Unit (Recorder (Session.Turns Session.Live.Connection)) :=
  (Session.Live.provider (.server false)).recorded

def rejected : Script.Buffer := ⟨"b.sql", "SELECT 1; FAIL; SELECT 2"⟩

/-- The second script fails with a sleeper abandoned. That its connection does not close is not
told, and the third script is not started. On the server the statement behind the one that fails
has not begun. -/
theorem Processor.exists_visits_nightly :
    stubborn.Records Session.Rehearsal.asleep ∧
    ∃ visits, strict.Visits stubborn Session.Rehearsal.asleep 0 nightly visits ∧
      visits.flatMap (fun v => record (v.attempt strict stubborn).events) =
        [connecting strict.config, .issue "SELECT 1" (.ofSeconds 60), .done "SELECT 1" true, .close,
          connecting strict.config, .issue "SLEEP 30" (.ofSeconds 60),
          .issue "FAIL" (.ofSeconds 60), .done "FAIL" false, .close] ∧
      (∃ v ∈ visits.getLast?, ∃ f, (v.attempt strict stubborn).result = .error f ∧
        f.isStatementFailure = true) ∧
    attended.Records Recorder.pending ∧
    ∃ visits, strict.Visits attended Recorder.pending () (rejected :: nightly) visits ∧
      visits.flatMap (fun v => record (v.attempt strict attended).events) =
        [connecting strict.config, .issue "SELECT 1" (.ofSeconds 60),
          .issue "FAIL" (.ofSeconds 60), .issue "SELECT 2" (.ofSeconds 60),
          .done "SELECT 1" true, .done "FAIL" false, .close] := by
  have hrecords : stubborn.Records Session.Rehearsal.asleep :=
    Session.Rehearsal.records_provider _
  have hresult : (match (strict.processAll stubborn 0 nightly).result with
      | .error f => f.isStatementFailure
      | .ok _ => false) = true := by
    decide +kernel
  obtain ⟨visits, hvisits⟩ := Processor.exists_visits hrecords strict 0 nightly
  have hattended : attended.Records Recorder.pending := Provider.records_recorded _
  obtain ⟨started, hstarted⟩ := Processor.exists_visits hattended strict () (rejected :: nightly)
  refine ⟨hrecords, visits, hvisits, ?_, ?_, hattended, started, hstarted, ?_⟩
  · rw [← hvisits.recorded]
    decide +kernel
  · split at hresult
    · rename_i f hf
      obtain ⟨v, hlast, hv⟩ := hvisits.failed f hf
      exact ⟨v, hlast, f, hv, hresult⟩
    · contradiction
  · rw [← hstarted.recorded]
    decide +kernel

end SqlBatch.Run
