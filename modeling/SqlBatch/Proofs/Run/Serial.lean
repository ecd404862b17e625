import SqlBatch.Proofs.Run.Switch

/-! Serial runs. A session that is asked job by job may make what a job comes to depend on the jobs
before it; so the outcomes of statements that are taken one after the other are known before the
run. A serial run takes the statements in that order, and without force the first one that fails is
the last one that is taken. -/

namespace SqlBatch.Run

/-- What the statements come to one after the other, behind the jobs `before`. The outcome of a job
is `answer` of the jobs that came before it; no statement is held back because another one fails. -/
def outcomesBehind (answer : List Job → Job → Outcome) (p : Policy) :
    List Job → List Statement → List Outcome
  | _, [] => []
  | before, x :: xs =>
    fate (answer before) p x :: outcomesBehind answer p (before ++ jobsOf p [x]) xs

/-- The failure `f` stands at place `k`, and none stands before it. -/
structure FailsFirst (outcomes : List Outcome) (k : Nat) (f : Failure) : Prop where
  fails : outcomes[k]? = some (.error f)
  first : ∀ i < k, outcomes[i]? = some (.ok ())

theorem failsFirst_cons_zero {o : Outcome} {outcomes : List Outcome} {f : Failure} :
    FailsFirst (o :: outcomes) 0 f ↔ o = .error f :=
  ⟨fun h => Option.some.inj h.fails,
    fun h => ⟨congrArg some h, fun i hi => absurd hi (Nat.not_lt_zero i)⟩⟩

theorem failsFirst_cons_succ {o : Outcome} {outcomes : List Outcome} {k : Nat} {f : Failure} :
    FailsFirst (o :: outcomes) (k + 1) f ↔ o = .ok () ∧ FailsFirst outcomes k f := by
  constructor
  · intro h
    refine ⟨Option.some.inj (h.first 0 (by omega)), h.fails, fun i hi => ?_⟩
    exact h.first (i + 1) (by omega)
  · rintro ⟨rfl, h⟩
    refine ⟨h.fails, fun i hi => ?_⟩
    cases i with
    | zero => rfl
    | succ i => exact h.first i (by omega)

namespace Session
variable {σ : Type} (s : Session σ) (st : σ)

def after (jobs : List Job) : σ := jobs.foldl (fun st job => (s.ask st job).session) st

def answerFrom (before : List Job) (job : Job) : Outcome := (s.ask (s.after st before) job).outcome

theorem after_append (jobs jobs' : List Job) :
    s.after st (jobs ++ jobs') = s.after (s.after st jobs) jobs' :=
  List.foldl_append

variable {s} in
theorem Records.issued_ask {pending : σ → Multiset String} (hs : s.Records pending) (job : Job) :
    issued (s.ask st job).events = [job.sql] := by
  rw [← issued_record]
  cases houtcome : (s.submit st job).outcome with
  | some o =>
    obtain ⟨-, ok, hevents⟩ := hs.submit_some houtcome
    rw [ask_of_outcome houtcome, hevents]
    rfl
  | none =>
    obtain ⟨-, hissued⟩ := hs.submit_none houtcome
    cases hnext : s.next? (s.submit st job).session with
    | none =>
      rw [ask_of_silence houtcome hnext, hissued]
      rfl
    | some a =>
      obtain ⟨sql, ok, -, hdone⟩ := hs.next?_some hnext
      rw [ask_of_next? houtcome hnext, record_append, hissued, hdone]
      rfl

end Session

theorem textsOf_cons (x : Statement) (xs : List Statement) :
    textsOf (x :: xs) = textsOf [x] ++ textsOf xs := by
  simp only [textsOf, ← List.map_append, ← List.filter_append, List.singleton_append]

theorem exists_of_switchOutcome_error {σ : Type} {s : Session σ} {p : Policy} {st : σ}
    {f : Failure} (h : switchOutcome s p st = .error f) : ∃ database sql,
      p.database = some database ∧ (s.backend st).useDatabase? database = some sql := by
  unfold switchOutcome switchJob? at h
  cases hdatabase : p.database with
  | none => simp [hdatabase] at h
  | some database =>
    cases hsql : (s.backend st).useDatabase? database with
    | none => simp [hdatabase, hsql] at h
    | some sql => exact ⟨database, sql, rfl, hsql⟩

namespace Course
variable {σ : Type} {s : Session σ} {p : Policy} {c : Course σ} {st : σ} {before : List Job}
  {statements : List Statement}

theorem settle_ok_report (c : Course σ) (p : Policy) (file : String) (index : Nat) :
    (c.settle p file index (.ok ())).report = c.report.countSuccess :=
  report_settle file index (Or.inr rfl)

theorem ended_settle_error (c : Course σ) (hforce : p.force = false) (file : String) (index : Nat)
    (f : Failure) :
    (c.settle p file index (.error f)).ended = some (.statement file index f.message) := by
  simp [settle, hforce]

theorem runSerial_eq_settle (file : String) (x : Statement)
    (hsession : c.session = s.after st before) : ∃ c' : Course σ,
      c.runSerial s p file x = c'.settle p file x.index (fate (s.answerFrom st before) p x) ∧
      c'.session = s.after st (before ++ jobsOf p [x]) ∧
      c'.report = c.report.countAttempts 1 ∧ c'.ended = c.ended := by
  have hreport : ((c.announce p file x).countAttempts 1).report = c.report.countAttempts 1 := by
    rw [countAttempts, report_announce]
  have hended : ((c.announce p file x).countAttempts 1).ended = c.ended := ended_announce ..
  have hstarted : ((c.announce p file x).countAttempts 1).session = s.after st before :=
    (session_announce ..).trans hsession
  unfold runSerial
  cases hx : x.isEmpty with
  | true =>
    rw [fate_of_isEmpty hx, jobsOf_of_isEmpty p hx, List.append_nil]
    exact ⟨_, rfl, hstarted, hreport, hended⟩
  | false =>
    rw [fate_of_not_isEmpty hx, jobsOf_of_not_isEmpty p hx, s.after_append, Session.answerFrom,
      ← hstarted]
    exact ⟨_, rfl, rfl, hreport, hended⟩

theorem issued_runSerial {pending : σ → Multiset String} (hs : s.Records pending) (file : String)
    (c : Course σ) (x : Statement) :
    issued (c.runSerial s p file x).work = issued c.work ++ textsOf [x] := by
  have hstarted : ((c.announce p file x).countAttempts 1).work = c.work :=
    c.apply_announce p file x work_note
  unfold runSerial
  cases hx : x.isEmpty with
  | true =>
    rw [if_pos rfl, skipBlank, work_settle, work_note, hstarted]
    simp [textsOf, hx]
  | false =>
    rw [if_neg Bool.false_ne_true, work_settle, work_ask, hstarted, issued_append, issued_record,
      hs.issued_ask]
    simp [textsOf, hx, jobOf]

theorem issued_foldl_runSerial {pending : σ → Multiset String} (hs : s.Records pending)
    (file : String) (statements : List Statement) (c : Course σ) :
    issued (statements.foldl (runSerial s p file) c).work =
      issued c.work ++ textsOf statements := by
  induction statements generalizing c with
  | nil => simp [textsOf]
  | cons x xs ih =>
    rw [List.foldl_cons, ih, issued_runSerial hs, List.append_assoc, ← textsOf_cons]

theorem serial_of_ok (file : String) (hsession : c.session = s.after st before)
    (hended : c.ended = none)
    (hok : ∀ o ∈ outcomesBehind (s.answerFrom st) p before statements, o = .ok ()) :
    c.serial s p file statements = statements.foldl (runSerial s p file) c ∧
    (c.serial s p file statements).ended = none ∧
    (c.serial s p file statements).report =
      { c.report with
        attempted := c.report.attempted + statements.length
        succeeded := c.report.succeeded + statements.length } := by
  induction statements generalizing c before with
  | nil => exact ⟨rfl, hended, rfl⟩
  | cons x xs ih =>
    obtain ⟨hx, hxs⟩ := List.forall_mem_cons.1 hok
    obtain ⟨c', hrun, hsession', hreport, hended'⟩ :=
      runSerial_eq_settle (p := p) file x hsession
    rw [hx] at hrun
    have hended'' : (c.runSerial s p file x).ended = none := by
      rw [hrun, ended_settle file x.index (Or.inr rfl), hended', hended]
    have hnext := ih (c := c.runSerial s p file x) (by rw [hrun, session_settle, hsession'])
      hended'' hxs
    rw [serial, List.foldl_cons, List.foldl_cons, unlessEnded_of_none hended]
    refine ⟨hnext.1, hnext.2.1, hnext.2.2.trans ?_⟩
    rw [hrun, settle_ok_report, hreport]
    simp [Report.countAttempts, Report.countSuccess, Nat.add_assoc, Nat.add_comm 1]

theorem serial_of_failsFirst (hforce : p.force = false) (file : String) {k : Nat} {x : Statement}
    {f : Failure} (hx : statements[k]? = some x) (hsession : c.session = s.after st before)
    (hended : c.ended = none)
    (hfails : FailsFirst (outcomesBehind (s.answerFrom st) p before statements) k f) :
    c.serial s p file statements = (statements.take (k + 1)).foldl (runSerial s p file) c ∧
    (c.serial s p file statements).ended = some (.statement file x.index f.message) := by
  induction statements generalizing c before k with
  | nil => simp at hx
  | cons y ys ih =>
    obtain ⟨c', hrun, hsession', -, hended'⟩ := runSerial_eq_settle (p := p) file y hsession
    have hnext : (c.runSerial s p file y).session = s.after st (before ++ jobsOf p [y]) := by
      rw [hrun, session_settle, hsession']
    rw [serial, List.foldl_cons, unlessEnded_of_none hended]
    cases k with
    | zero =>
      obtain rfl : y = x := Option.some.inj hx
      rw [failsFirst_cons_zero.1 hfails] at hrun
      have hfailed : (c.runSerial s p file y).ended = some (.statement file y.index f.message) := by
        rw [hrun, ended_settle_error c' hforce]
      rw [foldl_unlessEnded_of_isSome _ (by rw [hfailed]; rfl)]
      exact ⟨rfl, hfailed⟩
    | succ k =>
      obtain ⟨hok, hlater⟩ := failsFirst_cons_succ.1 hfails
      rw [hok] at hrun
      have hstands : (c.runSerial s p file y).ended = none := by
        rw [hrun, ended_settle file y.index (Or.inr rfl), hended', hended]
      exact ih (c := c.runSerial s p file y) hx hnext hstands hlater

theorem issued_selectDatabase_start {pending : σ → Multiset String} (hs : s.Records pending)
    (file : String) (st : σ) :
    issued ((start p file st).selectDatabase s p).work =
      (p.database.bind (s.backend st).useDatabase?).toList := by
  cases hdatabase : p.database with
  | none =>
    simp only [selectDatabase, hdatabase, work_start]
    rfl
  | some database =>
    cases hsql : (s.backend st).useDatabase? database with
    | none =>
      simp only [selectDatabase, hdatabase, session_start, hsql, work_note, work_start]
      simp [hsql]
    | some sql =>
      rw [work_selectDatabase_start hdatabase hsql, issued_record, hs.issued_ask]
      simp [hsql]

theorem work_conclude (c : Course σ) (p : Policy) (file : String) :
    (c.conclude p file).work = c.work :=
  work_progress ..

theorem execute_serial_eq (hmode : p.mode = .serial) (hswitch : switchOutcome s p st = .ok ())
    (file : String) (statements : List Statement) :
    execute s p file statements st =
      (serial s p file statements ((start p file st).selectDatabase s p)).unlessEnded
        (conclude p file) ∧
    ((start p file st).selectDatabase s p).ended = none ∧
    ((start p file st).selectDatabase s p).session = afterSwitch s p st ∧
    ((start p file st).selectDatabase s p).report = { file := file } := by
  have hcases := selectDatabase_cases (s := s) (p := p) (c := start p file st) (ended_start ..)
    (by rw [report_start])
  rw [session_start, report_start, hswitch] at hcases
  obtain ⟨-, hended, hsession, hreport⟩ := hcases.resolve_left fun h => h.1 (Or.inr rfl)
  refine ⟨?_, hended, hsession, hreport⟩
  rw [execute, unlessEnded_of_none hended, runStatements, hmode]

end Course

/-- A serial run without force takes its statements up to the first one that fails, and that one is
its failure; if none fails it takes and counts them all. Before that it switches to its database,
and a switch that fails is all there is of the run. -/
theorem execute_serial_stops {σ : Type} {s : Session σ} {pending : σ → Multiset String}
    (hs : s.Records pending) {p : Policy} (hmode : p.mode = .serial) (hforce : p.force = false)
    (file : String) (statements : List Statement) (st : σ) :
    let c := execute s p file statements st
    let switch := (p.database.bind (s.backend st).useDatabase?).toList
    let outcomes := outcomesBehind (s.answerFrom (afterSwitch s p st)) p [] statements
    (∀ f, switchOutcome s p st = .error f → issued c.trace.toList = switch ∧
      ∃ database, p.database = some database ∧
        c.result = .error (.useDatabase database f.message)) ∧
    (switchOutcome s p st = .ok () →
      (∀ k x f, statements[k]? = some x → FailsFirst outcomes k f →
        issued c.trace.toList = switch ++ textsOf (statements.take (k + 1)) ∧
        c.result = .error (.statement file x.index f.message)) ∧
      ((∀ o ∈ outcomes, o = .ok ()) →
        issued c.trace.toList = switch ++ textsOf statements ∧
        ∃ r, c.result = .ok r ∧ r.attempted = statements.length ∧
          r.succeeded = statements.length ∧ r.failures = [])) := by
  intro c switch outcomes
  have hissued : issued c.trace.toList = issued c.work := (issued_record _).symm
  have hswitched := Course.issued_selectDatabase_start hs (p := p) file st
  refine ⟨fun f hrefused => ?_, fun hswitch => ?_⟩
  · obtain ⟨database, sql, hdatabase, hsql⟩ := exists_of_switchOutcome_error hrefused
    obtain ⟨hwork, hresult⟩ :=
      Course.execute_of_refused hdatabase hsql hforce hrefused file statements
    refine ⟨?_, database, hdatabase, hresult⟩
    rw [hissued, hwork, issued_record, hs.issued_ask]
    simp [switch, hdatabase, hsql]
  · obtain ⟨hrun, hended, hsession, hreport⟩ :=
      Course.execute_serial_eq hmode hswitch file statements
    refine ⟨fun k x f hx hfails => ?_, fun hok => ?_⟩
    · obtain ⟨htaken, hfailed⟩ := Course.serial_of_failsFirst hforce file hx
        (hsession : _ = s.after (afterSwitch s p st) []) hended hfails
      -- the failure has ended the run, and nothing is concluded
      have hc : c = Course.serial s p file statements _ :=
        hrun.trans (Course.unlessEnded_of_isSome (by rw [hfailed]; rfl) _)
      refine ⟨?_, by rw [Course.result, hc, hfailed]⟩
      rw [hissued, hc, htaken, Course.issued_foldl_runSerial hs, hswitched]
    · obtain ⟨htaken, hstands, hcounted⟩ := Course.serial_of_ok (p := p) file
        (hsession : _ = s.after (afterSwitch s p st) []) hended hok
      have hc : c = (Course.serial s p file statements _).conclude p file :=
        hrun.trans (Course.unlessEnded_of_none hstands _)
      refine ⟨?_, c.report, Course.result_eq_ok.2 ⟨?_, rfl⟩, ?_⟩
      · rw [hissued, hc, Course.work_conclude, htaken, Course.issued_foldl_runSerial hs, hswitched]
      · rw [hc, Course.ended_conclude, hstands]
      · rw [hc, Course.report_conclude, hcounted, hreport]
        simp [Report.sorted]

def prompted : Session (List Outcome) where
  backend _ := .mysql
  submit outcomes job :=
    let o := outcomes.headD (.ok ())
    ⟨[.issue job.sql job.bound, .done job.sql o.isOk], some o, outcomes.tail⟩
  next? _ := none
  abandon outcomes := outcomes

theorem records_prompted : prompted.Records fun _ => 0 where
  abandon _ := rfl
  submit_some := by
    intro st job o _
    exact ⟨rfl, _, rfl⟩
  submit_none := by
    intro st job h
    contradiction
  next?_some := by
    intro st a h
    contradiction

theorem after_prompted (outcomes : List Outcome) (jobs : List Job) :
    prompted.after outcomes jobs = outcomes.drop jobs.length := by
  induction jobs generalizing outcomes with
  | nil => rfl
  | cons job jobs ih => exact (ih outcomes.tail).trans List.drop_tail

theorem answerFrom_prompted {front : List Outcome} {before : List Job}
    (hlength : before.length = front.length) (o : Outcome) (rest : List Outcome) (job : Job) :
    prompted.answerFrom (front ++ o :: rest) before job = o := by
  rw [Session.answerFrom, after_prompted, hlength, List.drop_left]
  rfl

/-- Whatever outcomes are assigned to statements that are not blank, there is a session on which
they come to these. -/
theorem exists_outcomesBehind_eq (p : Policy) {statements : List Statement}
    {verdicts : List Outcome}
    (h : List.Forall₂ (fun x o => x.isEmpty = true → o = .ok ()) statements verdicts) :
    ∃ st, outcomesBehind (prompted.answerFrom st) p [] statements = verdicts := by
  suffices hall : ∀ (before : List Job) (front : List Outcome), before.length = front.length →
      ∃ rest, outcomesBehind (prompted.answerFrom (front ++ rest)) p before statements =
        verdicts from hall [] [] rfl
  induction h with
  | nil => exact fun _ _ _ => ⟨[], rfl⟩
  | @cons x o xs os hblank _ ih =>
    intro before front hlength
    cases hx : x.isEmpty with
    | true =>
      obtain ⟨rest, hrest⟩ := ih before front hlength
      refine ⟨rest, ?_⟩
      rw [outcomesBehind, jobsOf_of_isEmpty p hx, List.append_nil, hrest, fate_of_isEmpty hx,
        hblank hx]
    | false =>
      obtain ⟨rest, hrest⟩ :=
        ih (before ++ [Course.jobOf p x]) (front ++ [o]) (by simp [hlength])
      rw [List.append_assoc, List.singleton_append] at hrest
      refine ⟨o :: rest, ?_⟩
      rw [outcomesBehind, jobsOf_of_not_isEmpty p hx, hrest, fate_of_not_isEmpty hx,
        answerFrom_prompted hlength]

def refrain : List Statement :=
  [⟨1, "A", ";"⟩, ⟨2, "", ";"⟩, ⟨3, "B", ";"⟩, ⟨3, "B", ";"⟩, ⟨4, "C", ";"⟩]

def unforgiving : Policy := { force := false, mode := .serial }

theorem execute_serial_stops_refrain :
    prompted.Records (fun _ => 0) ∧ unforgiving.mode = .serial ∧ unforgiving.force = false ∧
    let c := execute prompted unforgiving "a.sql" refrain
      [.ok (), .ok (), .error (.connection "gone")]
    issued c.trace.toList = ["A", "B", "B"] ∧
      c.result = .error (.statement "a.sql" 3 "Connection error: gone") := by
  refine ⟨records_prompted, rfl, rfl, ?_⟩
  obtain ⟨-, hall⟩ := execute_serial_stops records_prompted (p := unforgiving) rfl rfl "a.sql"
    refrain [.ok (), .ok (), .error (.connection "gone")]
  have hfails : FailsFirst (outcomesBehind (prompted.answerFrom
      [.ok (), .ok (), .error (.connection "gone")]) unforgiving [] refrain) 3
      (.connection "gone") := by
    refine failsFirst_cons_succ.2 ⟨rfl, failsFirst_cons_succ.2 ⟨rfl, ?_⟩⟩
    exact failsFirst_cons_succ.2 ⟨rfl, failsFirst_cons_zero.2 rfl⟩
  obtain ⟨hissued, hresult⟩ := (hall rfl).1 3 ⟨3, "B", ";"⟩ _ rfl hfails
  exact ⟨hissued, hresult.trans (by rfl)⟩

end SqlBatch.Run
