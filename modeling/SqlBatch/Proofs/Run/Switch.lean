import SqlBatch.Proofs.Except
import SqlBatch.Proofs.Run.Beside
import SqlBatch.Proofs.Run.Issued
import SqlBatch.Proofs.Run.Sequence
import SqlBatch.Session.Live

/-! The database switch. A run that has one is the switch and, behind it, the run that has none, on
the session that the switch left; a refused switch leaves its text in the report, or is all there is
of the run. Settings that ask for a switch name what to switch to, so that in a sequence of scripts
every connection to a backend that can switch begins with it; and where the settings do not ask for
it, nothing but statements of the scripts is issued. -/

namespace SqlBatch

namespace Config
variable {c : Config}

theorem database_policy_of_not_setDb (h : c.setDb = false) : c.policy.database = none := by
  unfold policy
  rw [h]
  cases c.database <;> rfl

@[simp] theorem force_policy (c : Config) : c.policy.force = c.force := by
  unfold policy
  cases c.database <;> cases c.setDb <;> rfl

theorem exists_database (hvalid : c.validate = .ok ()) (h : c.setDb = true) :
    ∃ database, c.database = some database ∧ c.policy.database = some database := by
  have hnamed : c.hasDatabase = true := by
    unfold validate at hvalid
    split_ifs at hvalid with hcredentials hfile hname
    simpa [h] using hname
  obtain ⟨database, hdatabase, hblank⟩ := (Option.any_eq_true _ _).1 hnamed
  rw [Bool.not_eq_true'] at hblank
  exact ⟨database, hdatabase, by simp [policy, Policy.withDatabase, hdatabase, h, hblank]⟩

end Config

theorem Backend.exists_useDatabase? {b : Backend} (h : b ≠ .sqlite) (database : String) :
    ∃ sql, b.useDatabase? database = some sql := by
  cases b with
  | mysql => exact ⟨_, rfl⟩
  | postgresql => exact ⟨_, rfl⟩
  | sqlite => contradiction

def Policy.withoutDatabase (p : Policy) : Policy := { p with database := none }

theorem Policy.actsAs_withoutDatabase (p : Policy) : p.ActsAs p.withoutDatabase := ⟨rfl, rfl, rfl⟩

namespace Run

def textsOf (statements : List Statement) : List String :=
  (statements.filter (!·.isEmpty)).map Statement.sql

theorem map_sql_jobsOf (p : Policy) (statements : List Statement) :
    (jobsOf p statements).map Job.sql = textsOf statements := by
  rw [jobsOf, textsOf, List.map_map]
  rfl

section
variable {σ : Type} {s : Session σ} {p : Policy} {database sql : String} {st : σ}
  (hdatabase : p.database = some database)
  (hsql : (s.backend st).useDatabase? database = some sql)
include hdatabase hsql

theorem switchOutcome_eq : switchOutcome s p st = (s.ask st ⟨0, sql, p.timeout⟩).outcome := by
  simp [switchOutcome, switchJob?, hdatabase, hsql]

theorem afterSwitch_eq : afterSwitch s p st = (s.ask st ⟨0, sql, p.timeout⟩).session := by
  simp [afterSwitch, switchJob?, hdatabase, hsql]

end

section
variable {σ : Type} {s : Session σ} {pending : σ → Multiset String}

theorem Session.Records.ask_eq (hs : s.Records pending) (hfrank : s.Frank) {st : σ}
    (hidle : pending st = 0) (job : Job) :
    record (s.ask st job).events =
      [.issue job.sql job.bound, .done job.sql (s.ask st job).outcome.isOk] := by
  obtain ⟨-, ok, hevents⟩ := hs.ask hfrank hidle job
  obtain ⟨front, sql, htold⟩ := hfrank.ask st job
  have hrecord : record (s.ask st job).events =
      record front ++ [.done sql (s.ask st job).outcome.isOk] := by
    rw [htold, record_append]
    rfl
  -- what is told last is how it came out
  have hlast := congrArg List.getLast? (hevents.symm.trans hrecord)
  simp only [List.getLast?_append, List.getLast?_cons, List.getLast?_nil, Option.getD_none,
    Option.getD_some, Option.some_or, Option.some.injEq, Event.done.injEq] at hlast
  rw [hevents, hlast.2]

theorem issued_work_of_no_database (hs : s.Records pending) {p : Policy}
    (hdatabase : p.database = none) (file : String) (statements : List Statement) {st : σ}
    (hidle : pending st = 0) :
    issued (execute s p file statements st).work <+: textsOf statements ∧
    ∀ r, (execute s p file statements st).result = .ok r →
      issued (execute s p file statements st).work = textsOf statements := by
  obtain ⟨jobs, hfront, hworks, hall⟩ := works_execute hs p file statements hidle
  have hagenda : agenda s p st statements = jobsOf p statements := by
    simp [agenda, switchJob?, hdatabase]
  rw [hagenda] at hfront hall
  rw [Work.issued_eq hworks, ← map_sql_jobsOf p]
  exact ⟨hfront.map _, fun r hr => by rw [hall r hr]⟩

end

namespace Course

section
variable {σ : Type} {s : Session σ} {p : Policy} {database sql : String}

theorem work_start (p : Policy) (file : String) (st : σ) : (start p file st).work = [] :=
  work_progress ..

theorem work_settleSwitch (c : Course σ) (p : Policy) (database : String) (o : Outcome) :
    (c.settleSwitch p database o).work = c.work := by
  cases o with
  | ok => exact work_progress ..
  | error f =>
    unfold settleSwitch
    simp only
    split <;> exact c.work_note _

theorem switchFailed_mem_settleSwitch (c : Course σ) (p : Policy) (database : String) {o : Outcome}
    {message : String} (h : errorText? o = some message) :
    .log (.switchFailed message) ∈ (c.settleSwitch p database o).trace.toList := by
  cases o with
  | ok => contradiction
  | error f =>
    obtain rfl := Option.some.inj h
    unfold settleSwitch
    simp only
    split <;> simp [note]

theorem ended_settleSwitch_of_refused (c : Course σ) (hforce : p.force = false) (f : Failure) :
    (c.settleSwitch p database (.error f)).ended = some (.useDatabase database f.message) := by
  simp [settleSwitch, hforce]

variable {st : σ} (hdatabase : p.database = some database)
  (hsql : (s.backend st).useDatabase? database = some sql)
include hdatabase hsql

theorem selectDatabase_start (file : String) :
    (start p file st).selectDatabase s p =
      (ask s ((start p file st).progress p .statements (.settingDatabase database))
        ⟨0, sql, p.timeout⟩).1.settleSwitch p database (switchOutcome s p st) := by
  have hstart : (s.backend (start p file st).session).useDatabase? database = some sql := by
    rwa [session_start]
  rw [selectDatabase_of_useDatabase? hdatabase hstart, switchOutcome_eq hdatabase hsql]
  simp [ask]

theorem work_selectDatabase_start (file : String) :
    ((start p file st).selectDatabase s p).work =
      record (s.ask st ⟨0, sql, p.timeout⟩).events := by
  rw [selectDatabase_start hdatabase hsql, work_settleSwitch, work_ask, work_progress, work_start,
    session_progress, session_start, List.nil_append]

theorem execute_of_refused (hforce : p.force = false) {f : Failure}
    (hrefused : switchOutcome s p st = .error f) (file : String) (statements : List Statement) :
    (execute s p file statements st).work = record (s.ask st ⟨0, sql, p.timeout⟩).events ∧
    (execute s p file statements st).result = .error (.useDatabase database f.message) := by
  have hended : ((start p file st).selectDatabase s p).ended =
      some (.useDatabase database f.message) := by
    rw [selectDatabase_start hdatabase hsql, hrefused]
    exact ended_settleSwitch_of_refused _ hforce f
  have hsome : ((start p file st).selectDatabase s p).ended.isSome = true := by
    rw [hended]
    rfl
  unfold execute
  rw [unlessEnded_of_isSome hsome, unlessEnded_of_isSome hsome]
  exact ⟨work_selectDatabase_start hdatabase hsql file, by rw [Course.result, hended]⟩

/-- A run whose policy tolerates the outcome of its switch is the switch and, behind it, the run
without one. -/
theorem execute_behind_switch (htolerates : p.Tolerates (switchOutcome s p st)) (file : String)
    (statements : List Statement) :
    let behind := execute s p.withoutDatabase file statements (afterSwitch s p st)
    (execute s p file statements st).work =
      record (s.ask st ⟨0, sql, p.timeout⟩).events ++ behind.work ∧
    (execute s p file statements st).result = behind.result.map fun r =>
      { r with databaseError := errorText? (switchOutcome s p st) } := by
  intro behind
  have hcases := selectDatabase_cases (s := s) (p := p) (c := start p file st) (ended_start ..)
    (by rw [report_start])
  rw [session_start, report_start] at hcases
  obtain ⟨-, hended, hsession, hreport⟩ := hcases.resolve_left fun h => h.1 htolerates
  -- side by side from where the switch is done: all that either has told lies before
  have hbeside : Beside Eq file
      { policy := p, before := ((start p file st).selectDatabase s p).trace.toList,
        error := errorText? (switchOutcome s p st) }
      { policy := p.withoutDatabase,
        before := (start p.withoutDatabase file (afterSwitch s p st)).trace.toList }
      ((start p file st).selectDatabase s p)
      (start p.withoutDatabase file (afterSwitch s p st)) := by
    refine ⟨by rw [hsession, session_start], by rw [hended, ended_start], [], { file := file },
      ⟨by simp, hreport, by simp, by simp [hended], ?_⟩,
      ⟨by simp, report_start .., by simp, by simp, by simp⟩⟩
    rw [selectDatabase_start hdatabase hsql]
    exact fun message => switchFailed_mem_settleSwitch _ p database
  have hran : Beside Eq file _ _ (execute s p file statements st) behind :=
    Beside.run p.actsAs_withoutDatabase s.respects_eq statements hbeside
  obtain ⟨remarks, r, hc, hd⟩ := hran.told
  have hevents : Remark.events p.withoutDatabase = Remark.events p := by
    funext remark
    cases remark <;> rfl
  refine ⟨?_, ?_⟩
  · have hwork : (execute s p file statements st).work =
        ((start p file st).selectDatabase s p).work ++
          record (remarks.flatMap (Remark.events p)) := by
      rw [work, hc.trace, record_append]
      rfl
    have hbehind : behind.work = record (remarks.flatMap (Remark.events p)) := by
      rw [work, hd.trace, record_append, hevents, ← work, work_start, List.nil_append]
    rw [hwork, hbehind, work_selectDatabase_start hdatabase hsql]
  · rw [result, result, ← hran.ended, hc.report, hd.report]
    cases (execute s p file statements st).ended <;> rfl

end
end Course

def Provider.IsFaithful {π σ : Type} (source : Provider π σ) : Prop :=
  ∀ {st : π} {c : Config} {connection : σ}, (source.connect st c).result = .ok connection →
    source.session.backend connection = c.backend

theorem Provider.IsFaithful.recorded {π σ : Type} {source : Provider π σ}
    (hsource : source.IsFaithful) : source.recorded.IsFaithful := by
  intro st c r hopen
  obtain ⟨connection, hconnection, rfl⟩ := exists_of_map_eq_ok hopen
  exact hsource hconnection

namespace Visit
variable {π σ : Type} (v : Visit π) (p : Processor) (source : Provider π σ) (connection : σ)

def switch : Outcome := switchOutcome source.session p.config.policy connection

/-- The run of the statements without a switch, on the session that the switch left. -/
def behind : Course σ :=
  execute source.session p.config.policy.withoutDatabase v.script.name v.script.statements
    (afterSwitch source.session p.config.policy connection)

/-- Between asking for the connection and closing it stands the switch `sql` to `database`, which is
completed before `work` begins. -/
structure SwitchesFirst (database sql : String) (work : List Event) : Prop where
  recorded : record (v.attempt p source).events =
    connecting p.config :: .issue sql p.config.policy.timeout ::
      .done sql (switch p source connection).isOk :: (work ++ [.close])
  front : issued work <+: textsOf v.script.statements
  refused : ∀ {f : Failure}, switch p source connection = .error f → p.config.force = false →
    work = [] ∧ (v.attempt p source).result = .error (.useDatabase database f.message)
  forced : p.config.force = true → issued work = textsOf v.script.statements ∧
    ∃ r, (v.course p source connection).result = .ok r ∧
      r.databaseError = errorText? (switch p source connection)
  uncounted : ∀ {r : Report}, (v.course p source connection).result = .ok r →
    work = (v.behind p source connection).work ∧
    ∃ r', (v.behind p source connection).result = .ok r' ∧
      r = { r' with databaseError := errorText? (switch p source connection) }

variable {v p source connection} {pending : σ → Multiset String}
  (hsource : source.Records pending)
  (hopen : (v.opened p source).result = .ok connection)
include hsource hopen

theorem record_attempt : record (v.attempt p source).events =
    connecting p.config :: ((v.course p source connection).work ++ [.close]) := by
  rw [attempt_of_opened hopen, record_log, record_append, record_append, closed, hsource.close,
    opened, hsource.connect]
  rfl

section
variable (hfrank : source.session.Frank) {database sql : String}
  (hdatabase : p.config.policy.database = some database)
  (hsql : (source.session.backend connection).useDatabase? database = some sql)
include hfrank hdatabase hsql

theorem record_switch :
    record (source.session.ask connection ⟨0, sql, p.config.policy.timeout⟩).events =
      [.issue sql p.config.policy.timeout, .done sql (switch p source connection).isOk] := by
  rw [hsource.session.ask_eq hfrank (hsource.fresh hopen), switch, switchOutcome_eq hdatabase hsql]

theorem SwitchesFirst.of_refused (hforce : p.config.force = false) {f : Failure}
    (hrefused : switch p source connection = .error f) :
    v.SwitchesFirst p source connection database sql [] := by
  obtain ⟨hwork, hresult⟩ := Course.execute_of_refused hdatabase hsql
    ((Config.force_policy _).trans hforce) hrefused v.script.name v.script.statements
  refine ⟨?_, List.nil_prefix, fun {g} hg _ => ⟨rfl, ?_⟩, fun h => ?_, fun {r} h => ?_⟩
  · rw [record_attempt hsource hopen, course, hwork,
      record_switch hsource hopen hfrank hdatabase hsql]
    rfl
  · obtain rfl := Except.error.inj (hrefused.symm.trans hg)
    rw [attempt_of_opened hopen, course, hresult]
    rfl
  · rw [hforce] at h
    contradiction
  · rw [course, hresult] at h
    contradiction

theorem SwitchesFirst.of_tolerated
    (htolerates : p.config.policy.Tolerates (switch p source connection)) :
    v.SwitchesFirst p source connection database sql (v.behind p source connection).work := by
  have hidle : pending (afterSwitch source.session p.config.policy connection) = 0 := by
    rw [afterSwitch_eq hdatabase hsql]
    exact (hsource.session.ask hfrank (hsource.fresh hopen) _).1
  obtain ⟨hwork, hresult⟩ := Course.execute_behind_switch hdatabase hsql htolerates
    v.script.name v.script.statements
  obtain ⟨hfront, hall⟩ := issued_work_of_no_database hsource.session
    (p := p.config.policy.withoutDatabase) rfl v.script.name v.script.statements hidle
  -- the two runs come to their reports together, which differ in what they say of the switch
  have hreported {r : Report} (h : (v.course p source connection).result = .ok r) :
      ∃ r', (v.behind p source connection).result = .ok r' ∧
        r = { r' with databaseError := errorText? (switch p source connection) } := by
    rw [course, hresult] at h
    obtain ⟨r', hr', rfl⟩ := exists_of_map_eq_ok h
    exact ⟨r', hr', rfl⟩
  refine ⟨?_, hfront, fun {f} hf hforce => ?_, fun hforce => ?_, fun h => ⟨rfl, hreported h⟩⟩
  · rw [record_attempt hsource hopen, course, hwork,
      record_switch hsource hopen hfrank hdatabase hsql]
    rfl
  · rcases htolerates with h | h
    · rw [Config.force_policy, hforce] at h
      contradiction
    · rw [hf] at h
      contradiction
  · have hended : (v.course p source connection).ended = none :=
      Course.ended_execute_of_force ((Config.force_policy _).trans hforce) _ _
    have hok : (v.course p source connection).result = .ok (v.course p source connection).report :=
      Course.result_eq_ok.2 ⟨hended, rfl⟩
    obtain ⟨r', hr', hr⟩ := hreported hok
    exact ⟨hall r' hr', _, hok, by rw [hr]⟩

theorem exists_switchesFirst :
    ∃ work, v.SwitchesFirst p source connection database sql work := by
  by_cases htolerates : p.config.policy.Tolerates (switch p source connection)
  · exact ⟨_, .of_tolerated hsource hopen hfrank hdatabase hsql htolerates⟩
  · rw [Policy.Tolerates, not_or, Config.force_policy, Bool.not_eq_true] at htolerates
    cases hswitch : switch p source connection with
    | ok => exact absurd hswitch htolerates.2
    | error f => exact ⟨_, .of_refused hsource hopen hfrank hdatabase hsql htolerates.1 hswitch⟩

end

end Visit

namespace Processor
variable {π σ : Type} (p : Processor) (source : Provider π σ)

/-- The scripts that a sequence starts, each where the one before has left the source. -/
def visited : π → List Script.Buffer → List (Visit π)
  | _, [] => []
  | st, b :: bs =>
    let first := p.process source st b
    ⟨st, b⟩ :: if first.result.isOk then visited first.state bs else []

theorem events_processAll (st : π) (scripts : List Script.Buffer) :
    (p.processAll source st scripts).events =
      (p.visited source st scripts).flatMap fun v => (v.attempt p source).events := by
  induction scripts generalizing st with
  | nil => rfl
  | cons b bs ih =>
    cases hresult : (p.process source st b).result with
    | error f => simp [processAll_of_error bs hresult, visited, hresult, Except.isOk, Except.toBool]
    | ok r => simp [processAll_of_ok bs hresult, visited, hresult, Except.isOk, Except.toBool, ih]

variable {source}

/-- Where the settings ask for a switch and the backend can switch, every connection that is opened
begins with the switch to the name that the settings give. Where they do not, nothing is issued but
statements of the script. -/
theorem processAll_switches_first {pending : σ → Multiset String}
    (hsource : source.Records pending) (hfrank : source.session.Frank)
    (hfaithful : source.IsFaithful) (st : π) (scripts : List Script.Buffer) :
    (p.processAll source st scripts).events =
      (p.visited source st scripts).flatMap (fun v => (v.attempt p source).events) ∧
    ∀ v ∈ p.visited source st scripts, ∀ connection,
      (v.opened p source).result = .ok connection →
      (p.config.setDb = true → p.config.backend ≠ .sqlite →
        ∃ database sql work, p.config.database = some database ∧
          p.config.backend.useDatabase? database = some sql ∧
          v.SwitchesFirst p source connection database sql work) ∧
      (p.config.setDb = false → ∃ work,
        record (v.attempt p source).events = connecting p.config :: (work ++ [.close]) ∧
        issued work <+: textsOf v.script.statements) := by
  refine ⟨p.events_processAll source st scripts, fun v _ connection hopen => ⟨?_, ?_⟩⟩
  · intro hsetDb hbackend
    -- what validation takes for a name, the policy does not take for blank
    obtain ⟨database, hconfig, hdatabase⟩ := Config.exists_database p.valid hsetDb
    obtain ⟨sql, hsql⟩ := Backend.exists_useDatabase? hbackend database
    have hsession : (source.session.backend connection).useDatabase? database = some sql := by
      rw [hfaithful hopen]
      exact hsql
    obtain ⟨work, hwork⟩ :=
      Visit.exists_switchesFirst hsource hopen hfrank hdatabase hsession
    exact ⟨database, sql, work, hconfig, hsql, hwork⟩
  · intro hsetDb
    have hnone := Config.database_policy_of_not_setDb hsetDb
    exact ⟨_, Visit.record_attempt hsource hopen,
      (issued_work_of_no_database hsource.session hnone _ _ (hsource.fresh hopen)).1⟩

end Processor

theorem isFaithful_rehearsal (behaviour : Session.Rehearsal.Behaviour) :
    (Session.Rehearsal.provider behaviour).IsFaithful := by
  intro asked c connection hopen
  simp only [Session.Rehearsal.provider, Session.Rehearsal.connect] at hopen
  split at hopen
  · simp at hopen
  · rw [Except.ok.injEq] at hopen
    rw [← hopen]
    rfl

theorem line_of_opened {α : Type} {a : Attempt Unit α} {connection : α → Session.Live.Connection}
    {st : Session.Turns Session.Live.Connection}
    (h : (Session.Live.opened a connection).result = .ok st) : ∃ x, st.line = connection x := by
  obtain ⟨x, -, rfl⟩ := exists_of_map_eq_ok h
  exact ⟨x, rfl⟩

/-- The connections to the backends themselves are faithful, whoever is found on the way. -/
theorem isFaithful_live (reach : Session.Reach) : (Session.Live.provider reach).IsFaithful := by
  intro _ c st hopen
  change (Session.Live.connect reach c).result = .ok st at hopen
  change st.line.backend = c.backend
  unfold Session.Live.connect at hopen
  cases hbackend : c.backend with
  | mysql =>
    simp only [hbackend] at hopen
    obtain ⟨link, hline⟩ := line_of_opened hopen
    rw [hline]
    rfl
  | postgresql =>
    simp only [hbackend] at hopen
    obtain ⟨link, hline⟩ := line_of_opened hopen
    rw [hline]
    rfl
  | sqlite =>
    simp only [hbackend, Session.Live.connectSqlite] at hopen
    split at hopen
    · contradiction
    · split at hopen
      · rw [← Except.ok.inj hopen]
        rfl
      · contradiction

def mislaid : Processor where
  config :=
    { username := some "u", password := some "p", database := some "FAILED", setDb := true }
  valid := rfl

theorem Processor.processAll_switches_first_mislaid :
    obliging.Records Session.Rehearsal.asleep ∧ obliging.session.Frank ∧ obliging.IsFaithful ∧
    (mislaid.visited obliging 0 nightly).length = 3 ∧
    (∀ v ∈ mislaid.visited obliging 0 nightly, ∀ connection,
      (v.opened mislaid obliging).result = .ok connection →
      ∃ work, v.SwitchesFirst mislaid obliging connection "FAILED" "USE `FAILED`" work) ∧
    issued (mislaid.processAll obliging 0 nightly).events =
      ["USE `FAILED`", "SELECT 1", "USE `FAILED`", "SLEEP 30", "FAIL", "USE `FAILED`",
        "SELECT 2"] ∧
    attended.Records Recorder.pending ∧ attended.session.Frank ∧ attended.IsFaithful ∧
    (∀ v ∈ mislaid.visited attended () nightly, ∀ connection,
      (v.opened mislaid attended).result = .ok connection →
      ∃ work, v.SwitchesFirst mislaid attended connection "FAILED" "USE `FAILED`" work) ∧
    issued (mislaid.processAll attended () nightly).events =
      ["USE `FAILED`", "SELECT 1", "USE `FAILED`", "SLEEP 30", "FAIL", "USE `FAILED`",
        "SELECT 2"] := by
  have hswitches {π σ : Type} {source : Provider π σ} {pending : σ → Multiset String}
      (hrecords : source.Records pending) (hfrank : source.session.Frank)
      (hfaithful : source.IsFaithful) (st : π) :
      ∀ v ∈ mislaid.visited source st nightly, ∀ connection,
        (v.opened mislaid source).result = .ok connection →
        ∃ work, v.SwitchesFirst mislaid source connection "FAILED" "USE `FAILED`" work := by
    intro v hv connection hopen
    obtain ⟨-, hall⟩ := mislaid.processAll_switches_first hrecords hfrank hfaithful st nightly
    obtain ⟨database, sql, work, hdatabase, hsql, hwork⟩ :=
      (hall v hv connection hopen).1 rfl (by decide)
    obtain rfl : "FAILED" = database := Option.some.inj hdatabase
    have hquoted : "USE `FAILED`" = sql := by
      rw [← Option.some.inj hsql]
      decide
    exact ⟨work, hquoted ▸ hwork⟩
  have hrecords : obliging.Records Session.Rehearsal.asleep :=
    Session.Rehearsal.records_provider _
  have hfrank : obliging.session.Frank := Session.Rehearsal.candid_session.frank
  have hfaithful : obliging.IsFaithful := isFaithful_rehearsal _
  have hrecords' : attended.Records Recorder.pending := Provider.records_recorded _
  have hfrank' : attended.session.Frank := Session.frank_recorded_turns _
  have hfaithful' : attended.IsFaithful := Provider.IsFaithful.recorded (isFaithful_live _)
  refine ⟨hrecords, hfrank, hfaithful, ?_, hswitches hrecords hfrank hfaithful 0, ?_,
    hrecords', hfrank', hfaithful', hswitches hrecords' hfrank' hfaithful' (), ?_⟩
  · decide +kernel
  · decide +kernel
  · decide +kernel

end Run
end SqlBatch
