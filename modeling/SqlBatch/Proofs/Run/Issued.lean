import Mathlib.Data.List.Perm.Subperm
import SqlBatch.Proofs.Run.FirstFailure
import SqlBatch.Proofs.Script.WellFormed
import SqlBatch.Proofs.Session.Rehearsal

/-! What reaches the database. The texts issued on a connection are those of the jobs handed over:
the database switch, and a front part of the statements that are not blank. At every moment the
texts completed are among those issued before; and where each statement is answered before the next
one is handed over, at most one is outstanding. -/

namespace SqlBatch.Run

def Event.issued? : Event → Option String
  | .issue sql _ => some sql
  | _ => none

def Event.completed? : Event → Option String
  | .done sql _ => some sql
  | _ => none

def issued (events : List Event) : List String := events.filterMap Event.issued?

def completed (events : List Event) : List String := events.filterMap Event.completed?

section
variable (events events' : List Event) (sql : String) (bound : Duration) (ok : Bool)

@[simp] theorem issued_nil : issued [] = [] := rfl

@[simp] theorem completed_nil : completed [] = [] := rfl

@[simp] theorem issued_issue : issued (.issue sql bound :: events) = sql :: issued events := rfl

@[simp] theorem completed_issue : completed (.issue sql bound :: events) = completed events := rfl

@[simp] theorem issued_done : issued (.done sql ok :: events) = issued events := rfl

@[simp] theorem completed_done : completed (.done sql ok :: events) = sql :: completed events := rfl

@[simp] theorem issued_append : issued (events ++ events') = issued events ++ issued events' :=
  List.filterMap_append ..

@[simp] theorem completed_append :
    completed (events ++ events') = completed events ++ completed events' :=
  List.filterMap_append ..

theorem filterMap_record {f : Event → Option String}
    (hf : ∀ e, e.isOfConnection = false → f e = none) :
    (record events).filterMap f = events.filterMap f := by
  rw [record, List.filterMap_filter]
  apply List.filterMap_congr
  intro e _
  cases he : e.isOfConnection with
  | true => rw [if_pos rfl]
  | false => rw [if_neg Bool.false_ne_true, hf e he]

theorem issued_record : issued (record events) = issued events :=
  filterMap_record events fun e he => by cases e <;> first | rfl | contradiction

theorem completed_record : completed (record events) = completed events :=
  filterMap_record events fun e he => by cases e <;> first | rfl | contradiction

end

namespace Work
variable {jobs : List Job} {unfinished : Multiset String} {work : List Event}

theorem issued_eq (h : Work jobs unfinished work) : issued work = jobs.map Job.sql := by
  induction h with
  | start => rfl
  | issue job _ ih => simp [ih]
  | done sql ok _ ih => simp [ih]

theorem exists_job (h : Work jobs unfinished work) {sql : String} {bound : Duration}
    (hmem : .issue sql bound ∈ work) : ∃ job ∈ jobs, job.sql = sql ∧ job.bound = bound := by
  induction h with
  | start => simp at hmem
  | issue job _ ih =>
    rcases List.mem_append.1 hmem with hmem | hlast
    · obtain ⟨job', hjob, hissued⟩ := ih hmem
      exact ⟨job', List.mem_append_left _ hjob, hissued⟩
    · obtain ⟨rfl, rfl⟩ := Event.issue.inj (List.mem_singleton.1 hlast)
      exact ⟨job, List.mem_append_right _ List.mem_cons_self, rfl, rfl⟩
  | done sql' ok _ ih =>
    rcases List.mem_append.1 hmem with hmem | hlast
    · exact ih hmem
    · simp at hlast

theorem balance (h : Work jobs unfinished work) :
    (issued work : Multiset String) = completed work + unfinished := by
  induction h with
  | start => rfl
  | @issue _ unfinished work job _ ih =>
    simp only [issued_append, completed_append, issued_issue, completed_issue, issued_nil,
      completed_nil, List.append_nil]
    rw [← Multiset.coe_add, ih, add_assoc, Multiset.coe_singleton, add_comm unfinished,
      Multiset.singleton_add]
  | @done _ unfinished work sql ok _ ih =>
    simp only [issued_append, completed_append, issued_done, completed_done, issued_nil,
      completed_nil, List.append_nil]
    rw [ih, ← Multiset.coe_add, add_assoc, Multiset.coe_singleton, Multiset.singleton_add]

theorem of_isPrefix (h : Work jobs unfinished work) {front : List Event}
    (hfront : front <+: work) : ∃ jobs' unfinished', Work jobs' unfinished' front := by
  induction h with
  | start =>
    rw [List.prefix_nil.1 hfront]
    exact ⟨[], 0, .start⟩
  | issue job hwork ih =>
    rcases List.prefix_concat_iff.1 hfront with rfl | hearlier
    · exact ⟨_, _, .issue job hwork⟩
    · exact ih hearlier
  | done sql ok hwork ih =>
    rcases List.prefix_concat_iff.1 hfront with rfl | hearlier
    · exact ⟨_, _, .done sql ok hwork⟩
    · exact ih hearlier

theorem subperm (h : Work jobs unfinished work) {front : List Event} (hfront : front <+: work) :
    (completed front).Subperm (issued front) := by
  obtain ⟨jobs', unfinished', hwork⟩ := h.of_isPrefix hfront
  rw [← Multiset.coe_le, hwork.balance]
  exact Multiset.le_add_right _ _

end Work

section
variable {σ : Type} {s : Session σ} {pending : σ → Multiset String}

theorem Session.Records.ask (hs : s.Records pending) (hfrank : s.Frank) {st : σ}
    (hidle : pending st = 0) (job : Job) : pending (s.ask st job).session = 0 ∧
      ∃ ok, record (s.ask st job).events = [.issue job.sql job.bound, .done job.sql ok] := by
  cases houtcome : (s.submit st job).outcome with
  | some o =>
    obtain ⟨hpending, ok, hevents⟩ := hs.submit_some houtcome
    rw [Session.ask_of_outcome houtcome]
    exact ⟨hpending.trans hidle, ok, hevents⟩
  | none =>
    obtain ⟨hpending, hissued⟩ := hs.submit_none houtcome
    obtain ⟨a, hnext⟩ := Option.isSome_iff_exists.1 (hfrank.submit_none houtcome)
    obtain ⟨sql, ok, hopen, hdone⟩ := hs.next?_some hnext
    -- this job is the only one that can be completed
    rw [hpending, hidle, Multiset.cons_zero, Multiset.singleton_eq_cons_iff] at hopen
    obtain ⟨rfl, hrest⟩ := hopen
    rw [Session.ask_of_next? houtcome hnext]
    refine ⟨hrest, ok, ?_⟩
    rw [record_append, hissued, hdone]
    rfl

namespace Course

/-- Every statement was completed before the next one was issued. -/
structure InTurn (pending : σ → Multiset String) (c : Course σ) : Prop where
  idle : pending c.session = 0
  settled : issued c.work = completed c.work
  turns : ∀ front, front <+: c.work →
    ∃ waiting : Option String, issued front = completed front ++ waiting.toList

theorem InTurn.fresh {st : σ} (hidle : pending st = 0) (r : Report) :
    InTurn pending { session := st, report := r } := by
  refine ⟨hidle, rfl, fun front hfront => ⟨none, ?_⟩⟩
  rw [List.prefix_nil.1 hfront]
  rfl

variable {c c' : Course σ}

theorem InTurn.of_eq (h : InTurn pending c) (hsession : c'.session = c.session)
    (hwork : c'.work = c.work) : InTurn pending c' := by
  refine ⟨by rw [hsession, h.idle], by rw [hwork, h.settled], ?_⟩
  rw [hwork]
  exact h.turns

theorem InTurn.ask (h : InTurn pending c) (hs : s.Records pending) (hfrank : s.Frank)
    (job : Job) : InTurn pending (ask s c job).1 := by
  obtain ⟨hidle, ok, hevents⟩ := hs.ask hfrank h.idle job
  have hwork : (Course.ask s c job).1.work =
      c.work ++ [.issue job.sql job.bound, .done job.sql ok] := by
    rw [Course.ask, work_observe, hevents]
    rfl
  refine ⟨hidle, ?_, fun front hfront => ?_⟩
  · simp [hwork, h.settled]
  · rw [hwork, List.append_cons] at hfront
    -- the front ends before the job, between its two events, or behind it
    rcases List.prefix_concat_iff.1 hfront with rfl | hfront
    · exact ⟨none, by simp [h.settled]⟩
    · rcases List.prefix_concat_iff.1 hfront with rfl | hfront
      · exact ⟨some job.sql, by simp [h.settled]⟩
      · exact h.turns front hfront

theorem InTurn.exists_waiting (h : InTurn pending c) {front : List Event}
    (hfront : front <+: c.trace.toList) :
    ∃ waiting : Option String, issued front = completed front ++ waiting.toList := by
  rw [← issued_record, ← completed_record]
  exact h.turns (record front) (hfront.filter _)

theorem Works.subperm {jobs : List Job} (h : Works pending jobs c) {front : List Event}
    (hfront : front <+: c.trace.toList) : (completed front).Subperm (issued front) := by
  rw [← issued_record, ← completed_record]
  exact Work.subperm h (hfront.filter _)

theorem Moves.inTurn (hs : s.Records pending) (hfrank : s.Frank) {p : Policy} {file : String}
    {jobs : List Job} (hmode : p.mode = .serial) (h : Moves s p file jobs c c')
    (hturn : InTurn pending c) : InTurn pending c' := by
  induction h with
  | trans _ _ ih ih' => exact ih' (ih hturn)
  | ask c job => exact hturn.ask hs hfrank job
  | submit c job hconcurrent =>
    rw [hmode] at hconcurrent
    contradiction
  | answer c a hconcurrent =>
    rw [hmode] at hconcurrent
    contradiction
  | note c n => exact hturn.of_eq rfl (c.work_note n)
  | settle c index o => exact hturn.of_eq (session_settle ..) (work_settle ..)
  | refl | count | keep | refuse | sort => exact hturn.of_eq rfl rfl

end Course

theorem not_isBlankString_of_useDatabase? {backend : Backend} {database sql : String}
    (h : backend.useDatabase? database = some sql) : Text.isBlankString sql = false := by
  cases backend with
  | mysql =>
    obtain rfl := Option.some.inj h
    rw [Text.isBlankString_append, Bool.and_eq_false_iff]
    exact Or.inl (by decide)
  | postgresql =>
    obtain rfl := Option.some.inj h
    rw [Text.isBlankString_append, Bool.and_eq_false_iff]
    exact Or.inl (by decide)
  | sqlite => contradiction

theorem map_sql_switchJob? (s : Session σ) (p : Policy) (st : σ) :
    (switchJob? s p st).map Job.sql = p.database.bind (s.backend st).useDatabase? := by
  unfold switchJob?
  cases p.database with
  | none => rfl
  | some database => cases h : (s.backend st).useDatabase? database <;> simp [h]

theorem not_isBlankString_of_mem_tokenize {script : String} {x : Statement}
    (hx : x ∈ Script.tokenize script Statement.defaultDelimiter) (hnonempty : x.isEmpty = false) :
    Text.isBlankString x.sql = false := by
  have hstarts := (Script.wellFormed_of_mem_tokenize (by decide) hx).starts
  have hne : x.sql.toList ≠ [] := by
    intro hnil
    rw [Statement.isEmpty, String.toList_eq_nil_iff.1 hnil] at hnonempty
    contradiction
  obtain ⟨c, cs, htext⟩ := List.exists_cons_of_ne_nil hne
  rw [htext] at hstarts
  rw [Text.isBlankString, htext, Text.allBlank_cons, hstarts c rfl]
  rfl

theorem job_of_mem_agenda {p : Policy} {st : σ} {script : String} {job : Job}
    (hmem : job ∈ agenda s p st (Script.tokenize script Statement.defaultDelimiter)) :
    job.bound = p.timeout ∧ Text.isBlankString job.sql = false := by
  rcases List.mem_append.1 hmem with hswitch | hstatement
  · obtain ⟨database, -, hjob⟩ := Option.bind_eq_some_iff.1 (Option.mem_toList.1 hswitch)
    obtain ⟨sql, hsql, rfl⟩ := Option.map_eq_some_iff.1 hjob
    exact ⟨rfl, not_isBlankString_of_useDatabase? hsql⟩
  · obtain ⟨x, hx, rfl⟩ := List.mem_map.1 hstatement
    obtain ⟨hx, hnonempty⟩ := List.mem_filter.1 hx
    exact ⟨rfl, not_isBlankString_of_mem_tokenize hx (by simpa using hnonempty)⟩

end

/-- What a run issues is the database switch and a front part of the statements that are not blank,
in source order, and all of them under force or if nothing fails. -/
theorem issued_execute (script file : String) (p : Policy) (backend : Backend) :
    let statements := Script.tokenize script Statement.defaultDelimiter
    let c := execute Session.Virtual.session p file statements { backend := backend }
    ∃ sent, sent <+: statements.filter (!·.isEmpty) ∧ sent.Pairwise (·.index < ·.index) ∧
      issued c.trace.toList =
        (p.database.bind backend.useDatabase?).toList ++ sent.map Statement.sql ∧
      (∀ sql bound, .issue sql bound ∈ c.trace →
        bound = p.timeout ∧ Text.isBlankString sql = false) ∧
      (p.force = true ∨ (∀ sql, .done sql false ∉ c.trace) →
        sent = statements.filter (!·.isEmpty)) ∧
      ∀ front, front <+: c.trace.toList →
        (completed front).Subperm (issued front) ∧
        (p.mode = .serial →
          ∃ waiting : Option String, issued front = completed front ++ waiting.toList) := by
  intro statements c
  have hcandid := Session.Virtual.candid
  obtain ⟨taken, hprefix, hmoves, hall⟩ := Course.moves_execute Session.Virtual.session p file
    statements { backend := backend }
  obtain ⟨sent, hsent, rfl⟩ := List.prefix_map_iff.1 hprefix
  have hworks : c.Works Session.Virtual.asleep
      ((switchJob? Session.Virtual.session p { backend := backend }).toList ++
        sent.map (Course.jobOf p)) :=
    hmoves.works Session.Virtual.records Work.start
  refine ⟨sent, hsent, ?_, ?_, ?_, ?_, fun front hfront => ⟨hworks.subperm hfront, ?_⟩⟩
  · have hincreasing : statements.Pairwise (·.index < ·.index) :=
      Script.Scanner.pairwise_index_finish Statement.defaultDelimiter script.toList
    exact (hincreasing.filter _).sublist hsent.sublist
  · have hissued := Work.issued_eq hworks
    rw [List.map_append, List.map_map, ← Option.toList_map, map_sql_switchJob?] at hissued
    rw [← issued_record]
    exact hissued
  · intro sql bound hmem
    have hrecorded : .issue sql bound ∈ c.work :=
      List.mem_filter.2 ⟨Array.mem_toList_iff.2 hmem, rfl⟩
    obtain ⟨job, hjob, rfl, rfl⟩ := Work.exists_job hworks hrecorded
    exact job_of_mem_agenda (((List.prefix_append_right_inj _).2 hprefix).subset hjob)
  · intro hunhurt
    have hended : c.ended = none := hunhurt.elim
      (fun hforce => Course.ended_execute_of_force hforce statements _)
      (Course.ended_execute_of_unhurt hcandid statements _)
    have hlength := congrArg List.length (hall hended)
    rw [jobsOf, List.length_map, List.length_map] at hlength
    exact hsent.eq_of_length hlength
  · intro hmode
    have hidle : Session.Virtual.asleep { backend := backend } = 0 := rfl
    have hturn := hmoves.inTurn Session.Virtual.records hcandid.frank hmode (.fresh hidle _)
    exact hturn.exists_waiting hfront

end SqlBatch.Run
