import SqlBatch.Proofs.Run.Beside
import SqlBatch.Proofs.Run.Lifecycle
import SqlBatch.Proofs.Run.Recorder
import SqlBatch.Session.Live

/-! The recorder does not disturb. Step for step a run on a recorded session stands where the run on
the session itself does, and apart from the record both have told the same. It takes a session that
answers no more jobs than it was handed, since the recorder has no job to book such an answer to. -/

namespace SqlBatch.Run

section
variable {events events' : List Event}

@[simp] theorem unrecorded_append :
    unrecorded (events ++ events') = unrecorded events ++ unrecorded events' :=
  List.filter_append ..

@[simp] theorem unrecorded_unrecorded : unrecorded (unrecorded events) = unrecorded events := by
  simp [unrecorded, List.filter_filter]

@[simp] theorem unrecorded_cons_log (n : Note) :
    unrecorded (.log n :: events) = .log n :: unrecorded events := rfl

theorem unrecorded_cons_of_isOfConnection {e : Event} (he : e.isOfConnection = true) :
    unrecorded (e :: events) = unrecorded events := by
  simp [unrecorded, he]

@[simp] theorem unrecorded_done (sql : String) (ok : Bool) : unrecorded [.done sql ok] = [] := rfl

end

/-- `owed` counts the jobs that a session has not answered. -/
structure Session.Owes {σ : Type} (s : Session σ) (owed : σ → Nat) : Prop where
  submit_some : ∀ {st : σ} {job : Job} {o : Outcome}, (s.submit st job).outcome = some o →
    owed (s.submit st job).session = owed st
  submit_none : ∀ {st : σ} {job : Job}, (s.submit st job).outcome = none →
    owed (s.submit st job).session = owed st + 1
  next?_some : ∀ {st : σ} {a : Answer σ}, s.next? st = some a → owed st = owed a.session + 1

namespace Recorder
variable {σ : Type} {s : Session σ} {owed : σ → Nat}

/-- It stands before a session in this state, and has a job for each answer that is owed. -/
structure Shows (owed : σ → Nat) (r : Recorder σ) (st : σ) : Prop where
  session : r.session = st
  opened : r.opened.length = owed st

variable {r : Recorder σ} {st : σ}

theorem Shows.fresh (h : owed st = 0) : Shows owed ⟨st, []⟩ st := ⟨rfl, h.symm⟩

theorem Shows.submit (hs : s.Owes owed) (h : r.Shows owed st) (job : Job) :
    unrecorded (submit s r job).events = unrecorded (s.submit st job).events ∧
    (submit s r job).outcome = (s.submit st job).outcome ∧
    (submit s r job).session.Shows owed (s.submit st job).session := by
  obtain rfl := h.session
  cases houtcome : (s.submit r.session job).outcome with
  | some o =>
    rw [submit_of_some houtcome]
    refine ⟨?_, rfl, rfl, h.opened.trans (hs.submit_some houtcome).symm⟩
    rw [unrecorded_append, unrecorded_done, List.append_nil, unrecorded_cons_of_isOfConnection rfl,
      unrecorded_unrecorded]
  | none =>
    rw [submit_of_none houtcome]
    refine ⟨?_, rfl, rfl, ?_⟩
    · rw [unrecorded_cons_of_isOfConnection rfl, unrecorded_unrecorded]
    · rw [List.length_append, List.length_singleton, h.opened, hs.submit_none houtcome]

theorem Shows.next?_none (h : r.Shows owed st) (hnext : s.next? st = none) :
    next? s r = none := by
  obtain rfl := h.session
  simp [next?, hnext]

theorem Shows.next?_some (hs : s.Owes owed) (h : r.Shows owed st) {a : Answer σ}
    (hnext : s.next? st = some a) :
    ∃ b, next? s r = some b ∧ b.index = a.index ∧ b.outcome = a.outcome ∧
      unrecorded b.events = unrecorded a.events ∧ b.session.Shows owed a.session := by
  obtain rfl := h.session
  have howed := hs.next?_some hnext
  have hopened : r.opened ≠ [] := by
    intro hnil
    have hlength := h.opened
    rw [hnil, howed] at hlength
    contradiction
  obtain ⟨job, hjob⟩ := exists_answered? hopened a.index
  have hshown : next? s r = some ⟨unrecorded a.events ++ [.done job.sql a.outcome.isOk], a.index,
      a.outcome, ⟨a.session, r.opened.erase job⟩⟩ := by
    simp [next?, hnext, hjob]
  refine ⟨_, hshown, rfl, rfl, ?_, rfl, ?_⟩
  · rw [unrecorded_append, unrecorded_done, List.append_nil, unrecorded_unrecorded]
  · have hlength := List.length_erase_of_mem (mem_of_answered? hjob)
    rw [h.opened, howed, Nat.add_sub_cancel] at hlength
    exact hlength

end Recorder

namespace Course
variable {σ : Type} {s : Session σ} {owed : σ → Nat}

structure Shows (owed : σ → Nat) (d : Course (Recorder σ)) (c : Course σ) : Prop where
  session : d.session.Shows owed c.session
  report : d.report = c.report
  ended : d.ended = c.ended
  trace : unrecorded d.trace.toList = unrecorded c.trace.toList

namespace Shows
variable {d : Course (Recorder σ)} {c : Course σ} (p : Policy) (file : String)

theorem note (h : Shows owed d c) (n : Note) : Shows owed (d.note n) (c.note n) :=
  ⟨h.session, h.report, h.ended, by simp [Course.note, h.trace]⟩

theorem progress (h : Shows owed d c) (v : Verbosity) (n : Note) :
    Shows owed (d.progress p v n) (c.progress p v n) := by
  unfold Course.progress
  split
  · exact h.note n
  · exact h

theorem announce (h : Shows owed d c) (x : Statement) :
    Shows owed (d.announce p file x) (c.announce p file x) := by
  unfold Course.announce
  split
  · exact h.note _
  · exact h

theorem announce_all (statements : List Statement) (h : Shows owed d c) :
    Shows owed (statements.foldl (fun d x => d.announce p file x) d)
      (statements.foldl (fun c x => c.announce p file x) c) := by
  induction statements generalizing d c with
  | nil => exact h
  | cons x xs ih => exact ih (h.announce p file x)

theorem observe (h : Shows owed d c) {r : Recorder σ} {st : σ} (hst : r.Shows owed st)
    {events events' : List Event} (hevents : unrecorded events = unrecorded events') :
    Shows owed (Course.observe { d with session := r } events)
      (Course.observe { c with session := st } events') :=
  ⟨hst, h.report, h.ended, by simp [Course.observe, h.trace, hevents]⟩

theorem withReport (h : Shows owed d c) (f : Report → Report) :
    Shows owed { d with report := f d.report } { c with report := f c.report } :=
  ⟨h.session, congrArg f h.report, h.ended, h.trace⟩

theorem withEnd (h : Shows owed d c) (f : Failure) :
    Shows owed { d with ended := some f } { c with ended := some f } :=
  ⟨h.session, h.report, rfl, h.trace⟩

theorem countAttempts (h : Shows owed d c) (n : Nat) :
    Shows owed (d.countAttempts n) (c.countAttempts n) :=
  h.withReport (·.countAttempts n)

theorem settle (h : Shows owed d c) (index : Nat) (o : Outcome) :
    Shows owed (d.settle p file index o) (c.settle p file index o) := by
  cases o with
  | ok => exact (h.withReport Report.countSuccess).progress p .statements _
  | error f =>
    have hnoted := h.note (.statementFailed file index f.message)
    unfold Course.settle
    cases p.force with
    | true => exact hnoted.withReport (·.addFailure ⟨index, f.message⟩)
    | false => exact hnoted.withEnd _

theorem settleSwitch (h : Shows owed d c) (database : String) (o : Outcome) :
    Shows owed (d.settleSwitch p database o) (c.settleSwitch p database o) := by
  cases o with
  | ok => exact h.progress p .statements _
  | error f =>
    have hnoted := h.note (.switchFailed f.message)
    unfold Course.settleSwitch
    cases p.force with
    | true => exact hnoted.withReport ({ · with databaseError := some f.message })
    | false => exact hnoted.withEnd _

theorem skipBlank (h : Shows owed d c) (x : Statement) :
    Shows owed (d.skipBlank p file x) (c.skipBlank p file x) :=
  (h.note (.skippingBlank x.index)).settle p file x.index (.ok ())

theorem unlessEnded (h : Shows owed d c) {f : Course (Recorder σ) → Course (Recorder σ)}
    {g : Course σ → Course σ} (hboth : Shows owed (f d) (g c)) :
    Shows owed (d.unlessEnded f) (c.unlessEnded g) := by
  unfold Course.unlessEnded
  rw [h.ended]
  split
  · exact h
  · exact hboth

theorem foldl {f : Course (Recorder σ) → Statement → Course (Recorder σ)}
    {g : Course σ → Statement → Course σ}
    (hboth : ∀ {d : Course (Recorder σ)} {c : Course σ} (x : Statement), Shows owed d c →
      Shows owed (f d x) (g c x))
    (statements : List Statement) (h : Shows owed d c) :
    Shows owed (statements.foldl (fun d x => d.unlessEnded fun d => f d x) d)
      (statements.foldl (fun c x => c.unlessEnded fun c => g c x) c) := by
  induction statements generalizing d c with
  | nil => exact h
  | cons x xs ih => exact ih (h.unlessEnded (hboth x h))

theorem conclude (h : Shows owed d c) : Shows owed (d.conclude p file) (c.conclude p file) := by
  have hsorted := (h.withReport Report.sorted).progress p .summary
    (.finished file c.report.sorted.attempted c.report.sorted.succeeded)
  unfold Course.conclude
  simpa only [h.report] using hsorted

section
variable (hs : s.Owes owed)
include hs

theorem submitted (h : Shows owed d c) (job : Job) :
    Shows owed (d.submitted s.recorded job) (c.submitted s job) ∧
    (s.recorded.submit d.session job).outcome = (s.submit c.session job).outcome := by
  obtain ⟨hevents, houtcome, hsession⟩ := h.session.submit hs job
  exact ⟨h.observe hsession hevents, houtcome⟩

theorem ask (h : Shows owed d c) (job : Job) :
    Shows owed (Course.ask s.recorded d job).1 (Course.ask s c job).1 ∧
    (Course.ask s.recorded d job).2 = (Course.ask s c job).2 := by
  obtain ⟨hsubmitted, houtcome'⟩ := h.submitted hs job
  cases houtcome : (s.submit c.session job).outcome with
  | some o =>
    rw [ask_of_outcome houtcome, ask_of_outcome (houtcome'.trans houtcome)]
    exact ⟨hsubmitted, rfl⟩
  | none =>
    cases hnext : s.next? (s.submit c.session job).session with
    | none =>
      have hsilence := hsubmitted.session.next?_none hnext
      rw [ask_of_silence houtcome hnext, ask_of_silence (houtcome'.trans houtcome) hsilence]
      exact ⟨hsubmitted, rfl⟩
    | some a =>
      obtain ⟨b, hb, -, hanswer, hevents, hsession⟩ := hsubmitted.session.next?_some hs hnext
      rw [ask_of_next? houtcome hnext, ask_of_next? (houtcome'.trans houtcome) hb]
      exact ⟨hsubmitted.observe hsession hevents, hanswer⟩

theorem runSerial (h : Shows owed d c) (x : Statement) :
    Shows owed (d.runSerial s.recorded p file x) (c.runSerial s p file x) := by
  have hstarted := (h.announce p file x).countAttempts 1
  unfold Course.runSerial
  cases x.isEmpty with
  | true => exact hstarted.skipBlank p file x
  | false =>
    obtain ⟨hasked, hanswer⟩ := hstarted.ask hs (jobOf p x)
    simp only [Bool.false_eq_true, if_false, hanswer]
    exact hasked.settle p file x.index _

theorem handOver (h : Shows owed d c) (x : Statement) :
    Shows owed (d.handOver s.recorded p file x) (c.handOver s p file x) := by
  cases hx : x.isEmpty with
  | true =>
    rw [handOver_of_isEmpty file hx, handOver_of_isEmpty file hx]
    exact h.skipBlank p file x
  | false =>
    obtain ⟨hsubmitted, houtcome'⟩ := h.submitted hs (jobOf p x)
    cases houtcome : (s.submit c.session (jobOf p x)).outcome with
    | none =>
      rw [handOver_of_silence file hx houtcome,
        handOver_of_silence file hx (houtcome'.trans houtcome)]
      exact hsubmitted
    | some o =>
      rw [handOver_of_outcome file hx houtcome,
        handOver_of_outcome file hx (houtcome'.trans houtcome)]
      exact hsubmitted.settle p file x.index o

theorem drain (n : Nat) (h : Shows owed d c) :
    Shows owed (d.drain s.recorded p file n) (c.drain s p file n) := by
  induction n generalizing d c with
  | zero => exact h
  | succ n ih =>
    have hended : d.ended.isSome = c.ended.isSome := by rw [h.ended]
    unfold Course.drain
    rw [hended]
    split
    · exact h
    · cases hnext : s.next? c.session with
      | none =>
        rw [show s.recorded.next? d.session = none from h.session.next?_none hnext]
        exact h
      | some a =>
        obtain ⟨b, hb, hindex, hanswer, hevents, hsession⟩ := h.session.next?_some hs hnext
        rw [show s.recorded.next? d.session = some b from hb]
        simp only [hindex, hanswer]
        exact ih ((h.observe hsession hevents).settle p file a.index a.outcome)

theorem runStatements (statements : List Statement) (h : Shows owed d c) :
    Shows owed (d.runStatements s.recorded p file statements)
      (c.runStatements s p file statements) := by
  unfold Course.runStatements
  cases p.mode with
  | serial => exact h.foldl (fun x h => h.runSerial p file hs x) statements
  | concurrent =>
    have hstarted := (h.announce_all p file statements).countAttempts statements.length
    have hhanded := hstarted.foldl (fun x h => h.handOver p file hs x) statements
    exact hhanded.drain p file hs statements.length

theorem selectDatabase (h : Shows owed d c) :
    Shows owed (d.selectDatabase s.recorded p) (c.selectDatabase s p) := by
  have hbackend : s.recorded.backend d.session = s.backend c.session :=
    congrArg s.backend h.session.session
  cases hdatabase : p.database with
  | none => simpa only [Course.selectDatabase, hdatabase] using h
  | some database =>
    cases hsql : (s.backend c.session).useDatabase? database with
    | none =>
      have hnoted := h.note (.cannotSwitch (s.backend c.session) database)
      simpa only [Course.selectDatabase, hdatabase, hbackend, hsql] using hnoted
    | some sql =>
      obtain ⟨hasked, hanswer⟩ :=
        (h.progress p .statements (.settingDatabase database)).ask hs ⟨0, sql, p.timeout⟩
      rw [selectDatabase_of_useDatabase? hdatabase hsql,
        selectDatabase_of_useDatabase? hdatabase (hbackend ▸ hsql)]
      simp only [hanswer]
      exact hasked.settleSwitch p database _

theorem execute (statements : List Statement) {r : Recorder σ} {st : σ} (h : r.Shows owed st) :
    Shows owed (Run.execute s.recorded p file statements r)
      (Run.execute s p file statements st) := by
  have hfresh : Shows owed ({ session := r, report := { file := file } } : Course (Recorder σ))
      { session := st, report := { file := file } } := ⟨h, rfl, rfl, rfl⟩
  have hswitched := (hfresh.progress p .summary (.starting file)).selectDatabase p hs
  have hran := hswitched.unlessEnded (hswitched.runStatements p file hs statements)
  exact hran.unlessEnded (hran.conclude p file)

end

theorem result_eq (h : Shows owed d c) : d.result = c.result := by
  rw [Course.result, Course.result, h.ended, h.report]

end Shows
end Course

/-! ### Sources -/

variable {π σ : Type} {source : Provider π σ} {owed : σ → Nat}

structure Provider.Owes (source : Provider π σ) (owed : σ → Nat) : Prop where
  session : source.session.Owes owed
  fresh : ∀ {st : π} {c : Config} {connection : σ},
    (source.connect st c).result = .ok connection → owed connection = 0

/-- The same attempt, apart from the record. -/
def Attempt.Shows {α : Type} (x y : Attempt π α) : Prop :=
  x.result = y.result ∧ x.state = y.state ∧ unrecorded x.events = unrecorded y.events

section
variable (source) (st : π) (c : Config)

theorem Provider.unrecorded_connect : unrecorded (source.recorded.connect st c).events =
    unrecorded (source.connect st c).events :=
  (unrecorded_cons_of_isOfConnection rfl).trans unrecorded_unrecorded

theorem Provider.result_connect : (source.recorded.connect st c).result =
    (source.connect st c).result.map fun session => { session } := rfl

theorem Provider.unrecorded_close (r : Recorder σ) :
    unrecorded (source.recorded.close st r).events =
      unrecorded (source.close st r.session).events :=
  (unrecorded_cons_of_isOfConnection rfl).trans unrecorded_unrecorded

end

namespace Processor
variable (p : Processor)

theorem process_recorded (hsource : source.Owes owed) (st : π) (b : Script.Buffer) :
    (p.process source.recorded st b).Shows (p.process source st b) := by
  have hconnect := source.result_connect st p.config
  cases hopen : (source.connect st p.config).result with
  | error f =>
    rw [hopen] at hconnect
    simp only [process, hopen, hconnect, Except.map]
    exact ⟨rfl, rfl, by simp [Provider.unrecorded_connect]⟩
  | ok connection =>
    rw [hopen] at hconnect
    have hran := Course.Shows.execute p.config.policy b.name hsource.session b.statements
      (.fresh (hsource.fresh hopen))
    have hleft : (source.recorded.session.abandon (execute source.recorded.session p.config.policy
        b.name b.statements ⟨connection, []⟩).session).session = source.session.abandon
          (execute source.session p.config.policy b.name b.statements connection).session :=
      congrArg source.session.abandon hran.session.session
    simp only [process, hopen, hconnect, Except.map]
    refine ⟨?_, ?_, ?_⟩
    · rw [← hleft]
      exact congrArg (settleClose · _) hran.result_eq
    · rw [← hleft]
      rfl
    · rw [← hleft]
      simp only [unrecorded_cons_log, unrecorded_append, Provider.unrecorded_connect,
        Provider.unrecorded_close]
      rw [← hran.trace]
      rfl

/-- A sequence of scripts comes to the same on a recorded source as on the source itself, and apart
from the record it tells the same. -/
theorem processAll_recorded (hsource : source.Owes owed) (st : π) (scripts : List Script.Buffer) :
    (p.processAll source.recorded st scripts).Shows (p.processAll source st scripts) := by
  induction scripts generalizing st with
  | nil => exact ⟨rfl, rfl, rfl⟩
  | cons b bs ih =>
    obtain ⟨hresult, hstate, hevents⟩ := p.process_recorded hsource st b
    cases hfirst : (p.process source st b).result with
    | error f =>
      rw [processAll_of_error bs hfirst, processAll_of_error bs (hresult.trans hfirst)]
      exact ⟨rfl, hstate, hevents⟩
    | ok report =>
      obtain ⟨hresults, hstates, hrest⟩ := ih (p.process source st b).state
      rw [processAll_of_ok bs hfirst, processAll_of_ok bs (hresult.trans hfirst), hstate]
      refine ⟨congrArg (Except.map (report :: ·)) hresults, hstates, ?_⟩
      rw [unrecorded_append, unrecorded_append, hevents, hrest]

end Processor

/-! ### Connections to the backends -/

theorem Session.owes_turns {τ : Type} (line : Session.Line τ) :
    (Session.Turns.session line).Owes fun st => st.waiting.length where
  submit_some := by
    intro st job o houtcome
    contradiction
  submit_none := by
    intro st job _
    exact List.length_append
  next?_some := by
    intro st a hnext
    obtain ⟨l, waiting⟩ := st
    cases waiting with
    | nil => contradiction
    | cons job rest =>
      cases hnext
      rfl

theorem waiting_of_opened {α : Type} {a : Attempt Unit α}
    {connection : α → Session.Live.Connection} {st : Session.Turns Session.Live.Connection}
    (h : (Session.Live.opened a connection).result = .ok st) : st.waiting = [] := by
  obtain ⟨x, -, rfl⟩ := exists_of_map_eq_ok h
  rfl

theorem owes_live (reach : Session.Reach) :
    (Session.Live.provider reach).Owes fun st => st.waiting.length where
  session := Session.owes_turns Session.Live.line
  fresh := by
    intro _ c st hopen
    refine List.length_eq_zero_iff.2 ?_
    change (Session.Live.connect reach c).result = .ok st at hopen
    unfold Session.Live.connect at hopen
    cases hbackend : c.backend with
    | mysql | postgresql =>
      simp only [hbackend] at hopen
      exact waiting_of_opened hopen
    | sqlite =>
      simp only [hbackend, Session.Live.connectSqlite] at hopen
      split at hopen
      · contradiction
      · split at hopen
        · rw [← Except.ok.inj hopen]
        · contradiction

end SqlBatch.Run
