import SqlBatch.Proofs.Run.Course

/-! Two runs side by side. They are on sessions whose states are alike, and under policies that
take the same decisions. Step for step both make the same remarks, of which each policy lets
through what its verbosity wants, and both come to the same report, apart from what was told and
from how the database switch had failed before the two were side by side. Whatever failure a run
comes to is among its remarks, and no verbosity keeps that back. -/

namespace SqlBatch

/-- Policies that differ at most in their verbosity and in their database. -/
structure Policy.ActsAs (p q : Policy) : Prop where
  mode : p.mode = q.mode
  force : p.force = q.force
  timeout : p.timeout = q.timeout

namespace Run

/-- What is told in the course of a run: an event, a note that is wanted from some verbosity on, or
the announcement of a statement. -/
inductive Remark where
  | event (e : Event)
  | progress (v : Verbosity) (n : Note) (isInfo : n.level = .info)
  | announcement (file : String) (x : Statement)

def Remark.events (p : Policy) : Remark → List Event
  | event e => [e]
  | progress v n _ => if p.wants v then [.log n] else []
  | announcement file x => ((announcement? p.verbosity file x).map Event.log).toList

theorem Remark.flatMap_event (p : Policy) (events : List Event) :
    (events.map Remark.event).flatMap (Remark.events p) = events := by
  induction events with
  | nil => rfl
  | cons e es ih => rw [List.map_cons, List.flatMap_cons, ih]; rfl

def notice? : Failure → Option Note
  | .statement file index detail => some (.statementFailed file index detail)
  | .useDatabase _ detail => some (.switchFailed detail)
  | _ => none

theorem level_of_notice? {f : Failure} {n : Note} (h : notice? f = some n) : n.level = .error := by
  unfold notice? at h
  split at h
  · rw [← Option.some.inj h]; rfl
  · rw [← Option.some.inj h]; rfl
  · contradiction

section
variable {σ : Type} (alike : σ → σ → Prop)

structure Submission.Alike (x y : Submission σ) : Prop where
  events : x.events = y.events
  outcome : x.outcome = y.outcome
  session : alike x.session y.session

structure Answer.Alike (x y : Answer σ) : Prop where
  events : x.events = y.events
  index : x.index = y.index
  outcome : x.outcome = y.outcome
  session : alike x.session y.session

/-- From states that are alike the session does the same, and the states stay alike. -/
structure Session.Respects (s : Session σ) : Prop where
  backend : ∀ {st st' : σ}, alike st st' → s.backend st = s.backend st'
  submit : ∀ {st st' : σ} (job : Job), alike st st' →
    (s.submit st job).Alike alike (s.submit st' job)
  next? : ∀ {st st' : σ}, alike st st' → Option.Rel (Answer.Alike alike) (s.next? st) (s.next? st')
  abandon : ∀ {st st' : σ}, alike st st' → alike (s.abandon st) (s.abandon st')

end

theorem Session.respects_eq {σ : Type} (s : Session σ) : s.Respects Eq where
  backend := congrArg s.backend
  submit := by
    rintro st _ job rfl
    exact ⟨rfl, rfl, rfl⟩
  next? := by
    rintro st _ rfl
    cases s.next? st with
    | none => exact .none
    | some a => exact .some ⟨rfl, rfl, rfl, rfl⟩
  abandon := congrArg s.abandon

theorem Session.Respects.ask {σ : Type} {alike : σ → σ → Prop} {s : Session σ}
    (hs : s.Respects alike) {st st' : σ} (h : alike st st') (job : Job) :
    (s.ask st job).Alike alike (s.ask st' job) := by
  have hsubmit := hs.submit job h
  have hnext := hs.next? hsubmit.session
  cases houtcome : (s.submit st job).outcome with
  | some o =>
    rw [ask_of_outcome houtcome, ask_of_outcome (hsubmit.outcome ▸ houtcome)]
    exact ⟨hsubmit.events, rfl, rfl, hsubmit.session⟩
  | none =>
    have houtcome' := hsubmit.outcome ▸ houtcome
    generalize ha : s.next? (s.submit st job).session = a at hnext
    generalize ha' : s.next? (s.submit st' job).session = a' at hnext
    cases hnext with
    | none =>
      rw [ask_of_silence houtcome ha, ask_of_silence houtcome' ha']
      exact ⟨hsubmit.events, rfl, rfl, hsubmit.session⟩
    | some hanswer =>
      rw [ask_of_next? houtcome ha, ask_of_next? houtcome' ha']
      exact ⟨by rw [hsubmit.events, hanswer.events], hanswer.index, hanswer.outcome,
        hanswer.session⟩

/-- One of two runs: its policy, and what it had told and how its database switch had failed before
the two were side by side. -/
structure Side where
  policy : Policy
  before : List Event := []
  error : Option String := none

namespace Course
variable {σ : Type}

/-- A run has made these remarks, and its report is `r` but for the database switch. -/
structure Told (file : String) (a : Side) (remarks : List Remark) (r : Report) (c : Course σ) :
    Prop where
  trace : c.trace.toList = a.before ++ remarks.flatMap (Remark.events a.policy)
  report : c.report = { r with databaseError := a.error }
  failures : ∀ x ∈ r.failures, .event (.log (.statementFailed file x.index x.message)) ∈ remarks
  ended : ∀ f, c.ended = some f → ∃ n, notice? f = some n ∧ .event (.log n) ∈ remarks
  switch : ∀ message, a.error = some message → .log (.switchFailed message) ∈ c.trace.toList

section
variable {file : String} {a : Side} {remarks : List Remark} {r : Report} {c c' : Course σ}

theorem Told.fresh (p : Policy) (file : String) (st : σ) :
    Told file { policy := p } [] { file := file }
      ({ session := st, report := { file := file } } : Course σ) where
  trace := rfl
  report := rfl
  failures := by simp
  ended := by simp
  switch := by simp

theorem Told.append (h : Told file a remarks r c) (more : List Remark)
    (htrace : c'.trace.toList = c.trace.toList ++ more.flatMap (Remark.events a.policy))
    (hreport : c'.report = c.report) (hended : c'.ended = c.ended) :
    Told file a (remarks ++ more) r c' where
  trace := by rw [htrace, h.trace, List.flatMap_append, List.append_assoc]
  report := hreport.trans h.report
  failures := fun x hx => List.mem_append_left more (h.failures x hx)
  ended := by
    intro f hf
    obtain ⟨n, hn, hmem⟩ := h.ended f (hended ▸ hf)
    exact ⟨n, hn, List.mem_append_left more hmem⟩
  switch := by
    intro message hm
    rw [htrace]
    exact List.mem_append_left _ (h.switch message hm)

theorem Told.note (h : Told file a remarks r c) (n : Note) :
    Told file a (remarks ++ [.event (.log n)]) r (c.note n) :=
  h.append _ (by simp [Course.note, Remark.events]) rfl rfl

theorem Told.progress (h : Told file a remarks r c) (v : Verbosity) {n : Note}
    (hn : n.level = .info) :
    Told file a (remarks ++ [.progress v n hn]) r (c.progress a.policy v n) := by
  refine h.append _ ?_ (report_progress ..) (ended_progress ..)
  rw [List.flatMap_singleton, Course.progress, Remark.events]
  split
  · simp [Course.note]
  · simp

theorem Told.announce (h : Told file a remarks r c) (x : Statement) :
    Told file a (remarks ++ [.announcement file x]) r (c.announce a.policy file x) := by
  refine h.append _ ?_ (report_announce ..) (ended_announce ..)
  rw [List.flatMap_singleton, Course.announce, Remark.events]
  cases announcement? a.policy.verbosity file x with
  | none => simp
  | some n => simp [Course.note]

theorem Told.observe (h : Told file a remarks r c) (st : σ) (events : List Event) :
    Told file a (remarks ++ events.map .event) r
      (Course.observe { c with session := st } events) :=
  h.append _ (by simp [Course.observe, Remark.flatMap_event]) rfl rfl

theorem Told.countAttempts (h : Told file a remarks r c) (n : Nat) :
    Told file a remarks (r.countAttempts n) (c.countAttempts n) where
  trace := h.trace
  report := by rw [Course.countAttempts, h.report]; rfl
  failures := h.failures
  ended := h.ended
  switch := h.switch

theorem Told.countSuccess (h : Told file a remarks r c) :
    Told file a remarks r.countSuccess { c with report := c.report.countSuccess } where
  trace := h.trace
  report := by rw [h.report]; rfl
  failures := h.failures
  ended := h.ended
  switch := h.switch

theorem Told.addFailure (h : Told file a remarks r c) {x : StatementFailure}
    (hx : .event (.log (.statementFailed file x.index x.message)) ∈ remarks) :
    Told file a remarks (r.addFailure x) { c with report := c.report.addFailure x } where
  trace := h.trace
  report := by rw [h.report]; rfl
  failures := by
    intro y hy
    rcases List.mem_append.1 hy with hy | hy
    · exact h.failures y hy
    · rwa [List.mem_singleton.1 hy]
  ended := h.ended
  switch := h.switch

theorem Told.halt (h : Told file a remarks r c) {f : Failure} {n : Note} (hn : notice? f = some n)
    (hmem : .event (.log n) ∈ remarks) : Told file a remarks r { c with ended := some f } where
  trace := h.trace
  report := h.report
  failures := h.failures
  ended := by
    intro g hg
    obtain rfl := Option.some.inj hg
    exact ⟨n, hn, hmem⟩
  switch := h.switch

theorem Told.keep (h : Told file a remarks r c) {message : String}
    (hmem : .log (.switchFailed message) ∈ c.trace.toList) :
    Told file { a with error := some message } remarks r
      { c with report := { c.report with databaseError := some message } } where
  trace := h.trace
  report := by rw [h.report]
  failures := h.failures
  ended := h.ended
  switch := by
    intro message' hm
    obtain rfl := Option.some.inj hm
    exact hmem

theorem Told.sorted (h : Told file a remarks r c) :
    Told file a remarks r.sorted { c with report := c.report.sorted } where
  trace := h.trace
  report := by rw [h.report]; rfl
  failures := fun x hx => h.failures x (List.mem_mergeSort.1 hx)
  ended := h.ended
  switch := h.switch

end

def settleSwitch (c : Course σ) (p : Policy) (database : String) : Outcome → Course σ
  | .ok () => c.progress p .statements .databaseSet
  | .error f =>
    let noted := c.note (.switchFailed f.message)
    if p.force then { noted with report := { noted.report with databaseError := some f.message } }
    else { noted with ended := some (.useDatabase database f.message) }

theorem selectDatabase_of_useDatabase? {s : Session σ} {p : Policy} {c : Course σ}
    {database sql : String} (hdatabase : p.database = some database)
    (hsql : (s.backend c.session).useDatabase? database = some sql) :
    c.selectDatabase s p =
      let asked := ask s (c.progress p .statements (.settingDatabase database)) ⟨0, sql, p.timeout⟩
      asked.1.settleSwitch p database asked.2 := by
  simp only [selectDatabase, hdatabase, hsql]
  rfl

structure Beside (alike : σ → σ → Prop) (file : String) (a b : Side) (c d : Course σ) : Prop where
  session : alike c.session d.session
  ended : c.ended = d.ended
  told : ∃ remarks r, Told file a remarks r c ∧ Told file b remarks r d

namespace Beside
variable {alike : σ → σ → Prop} {file : String} {a b : Side} {c d : Course σ} {s : Session σ}

theorem note (h : Beside alike file a b c d) (n : Note) :
    Beside alike file a b (c.note n) (d.note n) := by
  obtain ⟨remarks, r, hc, hd⟩ := h.told
  exact ⟨h.session, h.ended, _, _, hc.note n, hd.note n⟩

theorem progress (h : Beside alike file a b c d) (v : Verbosity) {n : Note}
    (hn : n.level = .info) :
    Beside alike file a b (c.progress a.policy v n) (d.progress b.policy v n) := by
  obtain ⟨remarks, r, hc, hd⟩ := h.told
  exact ⟨by simpa using h.session, by simpa using h.ended, _, _, hc.progress v hn,
    hd.progress v hn⟩

theorem announce (h : Beside alike file a b c d) (x : Statement) :
    Beside alike file a b (c.announce a.policy file x) (d.announce b.policy file x) := by
  obtain ⟨remarks, r, hc, hd⟩ := h.told
  exact ⟨by simpa using h.session, by simpa using h.ended, _, _, hc.announce x, hd.announce x⟩

theorem announce_all (h : Beside alike file a b c d) (statements : List Statement) :
    Beside alike file a b (statements.foldl (fun c x => c.announce a.policy file x) c)
      (statements.foldl (fun d x => d.announce b.policy file x) d) := by
  induction statements generalizing c d with
  | nil => exact h
  | cons x xs ih => exact ih (h.announce x)

theorem observe (h : Beside alike file a b c d) {st st' : σ} (hst : alike st st')
    {events events' : List Event} (hevents : events = events') :
    Beside alike file a b (Course.observe { c with session := st } events)
      (Course.observe { d with session := st' } events') := by
  obtain ⟨remarks, r, hc, hd⟩ := h.told
  subst hevents
  exact ⟨hst, h.ended, _, _, hc.observe st events, hd.observe st' events⟩

theorem countAttempts (h : Beside alike file a b c d) (n : Nat) :
    Beside alike file a b (c.countAttempts n) (d.countAttempts n) := by
  obtain ⟨remarks, r, hc, hd⟩ := h.told
  exact ⟨h.session, h.ended, _, _, hc.countAttempts n, hd.countAttempts n⟩

section
variable (hpolicies : a.policy.ActsAs b.policy)
include hpolicies

theorem settle (h : Beside alike file a b c d) (index : Nat) (o : Outcome) :
    Beside alike file a b (c.settle a.policy file index o) (d.settle b.policy file index o) := by
  obtain ⟨remarks, r, hc, hd⟩ := h.told
  cases o with
  | ok =>
    have hcounted : Beside alike file a b { c with report := c.report.countSuccess }
        { d with report := d.report.countSuccess } :=
      ⟨h.session, h.ended, _, _, hc.countSuccess, hd.countSuccess⟩
    exact hcounted.progress .statements rfl
  | error f =>
    -- the failure is told first, and then kept by both runs or the end of both
    have hmem : Remark.event (.log (.statementFailed file index f.message)) ∈
        remarks ++ [.event (.log (.statementFailed file index f.message))] :=
      List.mem_append_right _ List.mem_cons_self
    simp only [Course.settle, ← hpolicies.force]
    split
    · exact ⟨h.session, h.ended, _, _, (hc.note _).addFailure (x := ⟨index, f.message⟩) hmem,
        (hd.note _).addFailure (x := ⟨index, f.message⟩) hmem⟩
    · exact ⟨h.session, rfl, _, _, (hc.note _).halt rfl hmem, (hd.note _).halt rfl hmem⟩

theorem skipBlank (h : Beside alike file a b c d) (x : Statement) :
    Beside alike file a b (c.skipBlank a.policy file x) (d.skipBlank b.policy file x) :=
  (h.note (.skippingBlank x.index)).settle hpolicies x.index (.ok ())

theorem jobOf_eq (x : Statement) : jobOf a.policy x = jobOf b.policy x := by
  unfold jobOf
  rw [hpolicies.timeout]

theorem runSerial (hs : s.Respects alike) (h : Beside alike file a b c d) (x : Statement) :
    Beside alike file a b (c.runSerial s a.policy file x) (d.runSerial s b.policy file x) := by
  have hstarted := (h.announce x).countAttempts 1
  unfold Course.runSerial
  cases hx : x.isEmpty with
  | true => exact hstarted.skipBlank hpolicies x
  | false =>
    have hanswer := hs.ask hstarted.session (jobOf a.policy x)
    have hasked := hstarted.observe hanswer.session hanswer.events
    have hsettled := hasked.settle hpolicies x.index
      (s.ask ((c.announce a.policy file x).countAttempts 1).session (jobOf a.policy x)).outcome
    simp only [Bool.false_eq_true, if_false, Course.ask, ← jobOf_eq hpolicies x]
    rw [← hanswer.outcome]
    exact hsettled

theorem handOver (hs : s.Respects alike) (h : Beside alike file a b c d) (x : Statement) :
    Beside alike file a b (c.handOver s a.policy file x) (d.handOver s b.policy file x) := by
  cases hx : x.isEmpty with
  | true =>
    rw [handOver_of_isEmpty file hx, handOver_of_isEmpty file hx]
    exact h.skipBlank hpolicies x
  | false =>
    have hsubmission := hs.submit (jobOf a.policy x) h.session
    have hhanded := h.observe hsubmission.session hsubmission.events
    have houtcome' := hsubmission.outcome
    cases houtcome : (s.submit c.session (jobOf a.policy x)).outcome with
    | none =>
      rw [houtcome, jobOf_eq hpolicies x] at houtcome'
      rw [handOver_of_silence file hx houtcome, handOver_of_silence file hx houtcome'.symm,
        ← jobOf_eq hpolicies x]
      exact hhanded
    | some o =>
      rw [houtcome, jobOf_eq hpolicies x] at houtcome'
      rw [handOver_of_outcome file hx houtcome, handOver_of_outcome file hx houtcome'.symm,
        ← jobOf_eq hpolicies x]
      exact hhanded.settle hpolicies x.index o

end

theorem unlessEnded (h : Beside alike file a b c d) {f g : Course σ → Course σ}
    (hboth : Beside alike file a b (f c) (g d)) :
    Beside alike file a b (c.unlessEnded f) (d.unlessEnded g) := by
  unfold Course.unlessEnded
  rw [← h.ended]
  split
  · exact h
  · exact hboth

theorem foldl {f g : Course σ → Statement → Course σ}
    (hboth : ∀ {c d : Course σ} (x : Statement), Beside alike file a b c d →
      Beside alike file a b (f c x) (g d x))
    (statements : List Statement) (h : Beside alike file a b c d) :
    Beside alike file a b (statements.foldl (fun c x => c.unlessEnded fun c => f c x) c)
      (statements.foldl (fun d x => d.unlessEnded fun d => g d x) d) := by
  induction statements generalizing c d with
  | nil => exact h
  | cons x xs ih => exact ih (h.unlessEnded (hboth x h))

theorem conclude (h : Beside alike file a b c d) :
    Beside alike file a b (c.conclude a.policy file) (d.conclude b.policy file) := by
  obtain ⟨remarks, r, hc, hd⟩ := h.told
  have hsorted : Beside alike file a b { c with report := c.report.sorted }
      { d with report := d.report.sorted } :=
    ⟨h.session, h.ended, _, _, hc.sorted, hd.sorted⟩
  have hcounts : Note.finished file d.report.sorted.attempted d.report.sorted.succeeded =
      .finished file c.report.sorted.attempted c.report.sorted.succeeded := by
    rw [hc.report, hd.report]
    rfl
  unfold Course.conclude
  simp only
  rw [hcounts]
  exact hsorted.progress .summary rfl

section
variable (hpolicies : a.policy.ActsAs b.policy) (hs : s.Respects alike)
include hpolicies hs

theorem drain (n : Nat) (h : Beside alike file a b c d) :
    Beside alike file a b (c.drain s a.policy file n) (d.drain s b.policy file n) := by
  induction n generalizing c d with
  | zero => exact h
  | succ n ih =>
    have hended : d.ended.isSome = c.ended.isSome := by rw [h.ended]
    unfold Course.drain
    rw [hended]
    split
    · exact h
    · have hnext := hs.next? h.session
      generalize s.next? c.session = answer at hnext
      generalize s.next? d.session = answer' at hnext
      cases hnext with
      | none => exact h
      | @some x y hanswer =>
        have hanswered := h.observe hanswer.session hanswer.events
        have hsettled := hanswered.settle hpolicies x.index x.outcome
        simp only
        rw [← hanswer.index, ← hanswer.outcome]
        exact ih hsettled

theorem runStatements (statements : List Statement) (h : Beside alike file a b c d) :
    Beside alike file a b (c.runStatements s a.policy file statements)
      (d.runStatements s b.policy file statements) := by
  unfold Course.runStatements
  rw [← hpolicies.mode]
  cases a.policy.mode with
  | serial => exact h.foldl (fun x h => h.runSerial hpolicies hs x) statements
  | concurrent =>
    have hstarted := (h.announce_all statements).countAttempts statements.length
    have hhanded := hstarted.foldl (fun x h => h.handOver hpolicies hs x) statements
    exact hhanded.drain hpolicies hs statements.length

theorem run (statements : List Statement) (h : Beside alike file a b c d) :
    Beside alike file a b
      ((c.unlessEnded (Course.runStatements s a.policy file statements)).unlessEnded
        (Course.conclude a.policy file))
      ((d.unlessEnded (Course.runStatements s b.policy file statements)).unlessEnded
        (Course.conclude b.policy file)) := by
  have hran := h.unlessEnded (h.runStatements hpolicies hs statements)
  exact hran.unlessEnded hran.conclude

end

section
variable {p q : Policy} (hpolicies : p.ActsAs q) (hdatabase : p.database = q.database)
  (hs : s.Respects alike)
include hpolicies hdatabase hs

omit hdatabase hs in
theorem settleSwitch (h : Beside alike file { policy := p } { policy := q } c d)
    (database : String) (o : Outcome) :
    ∃ error, Beside alike file { policy := p, error := error } { policy := q, error := error }
      (c.settleSwitch p database o) (d.settleSwitch q database o) := by
  cases o with
  | ok => exact ⟨none, h.progress .statements rfl⟩
  | error f =>
    obtain ⟨remarks, r, hc, hd⟩ := h.told
    have hmem : Remark.event (.log (.switchFailed f.message)) ∈
        remarks ++ [.event (.log (.switchFailed f.message))] :=
      List.mem_append_right _ List.mem_cons_self
    simp only [Course.settleSwitch, ← hpolicies.force]
    split
    · refine ⟨some f.message, h.session, h.ended, _, _, (hc.note _).keep ?_, (hd.note _).keep ?_⟩
      · simp [Course.note]
      · simp [Course.note]
    · exact ⟨none, h.session, rfl, _, _, (hc.note _).halt rfl hmem, (hd.note _).halt rfl hmem⟩

theorem selectDatabase (h : Beside alike file { policy := p } { policy := q } c d) :
    ∃ error, Beside alike file { policy := p, error := error } { policy := q, error := error }
      (c.selectDatabase s p) (d.selectDatabase s q) := by
  cases hp : p.database with
  | none => exact ⟨none, by simpa only [Course.selectDatabase, ← hdatabase, hp] using h⟩
  | some database =>
    have hq := hdatabase.symm.trans hp
    have hbackend := hs.backend h.session
    cases hsql : (s.backend c.session).useDatabase? database with
    | none =>
      have hnoted := h.note (.cannotSwitch (s.backend c.session) database)
      refine ⟨none, ?_⟩
      simpa only [Course.selectDatabase, hp, hq, ← hbackend, hsql] using hnoted
    | some sql =>
      have hannounced := h.progress .statements (n := .settingDatabase database) rfl
      have hanswer := hs.ask hannounced.session ⟨0, sql, p.timeout⟩
      have hasked := hannounced.observe hanswer.session hanswer.events
      rw [selectDatabase_of_useDatabase? hp hsql,
        selectDatabase_of_useDatabase? hq (hbackend ▸ hsql), ← hpolicies.timeout]
      simp only [Course.ask, ← hanswer.outcome]
      exact hasked.settleSwitch hpolicies database _

variable (file) in
theorem execute (statements : List Statement) {st st' : σ} (hst : alike st st') :
    ∃ error, Beside alike file { policy := p, error := error } { policy := q, error := error }
      (Run.execute s p file statements st) (Run.execute s q file statements st') := by
  have hfresh : Beside alike file { policy := p } { policy := q }
      { session := st, report := { file := file } }
      { session := st', report := { file := file } } :=
    ⟨hst, rfl, _, _, .fresh p file st, .fresh q file st'⟩
  have hstarted := hfresh.progress .summary (n := .starting file) rfl
  obtain ⟨error, hswitched⟩ := hstarted.selectDatabase hpolicies hdatabase hs
  exact ⟨error, hswitched.run hpolicies hs statements⟩

end
end Beside
end Course

/-- Under one policy, runs from states that are alike are the same. -/
theorem execute_of_alike {σ : Type} {alike : σ → σ → Prop} {s : Session σ} (hs : s.Respects alike)
    (p : Policy) (file : String) (statements : List Statement) {st st' : σ} (h : alike st st') :
    (execute s p file statements st).trace = (execute s p file statements st').trace ∧
    (execute s p file statements st).result = (execute s p file statements st').result ∧
    alike (execute s p file statements st).session (execute s p file statements st').session := by
  have hactsAs : p.ActsAs p := ⟨rfl, rfl, rfl⟩
  obtain ⟨error, hbeside⟩ := Course.Beside.execute file hactsAs rfl hs statements h
  obtain ⟨remarks, r, hc, hd⟩ := hbeside.told
  refine ⟨Array.toList_inj.1 (hc.trace.trans hd.trace.symm), ?_, hbeside.session⟩
  rw [Course.result, Course.result, hbeside.ended, hc.report, hd.report]

end Run
end SqlBatch
