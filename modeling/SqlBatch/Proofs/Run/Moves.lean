import SqlBatch.Proofs.Run.Outcome

/-! The moves of a run. Whatever a run does is a chain of few kinds of moves, and which jobs a chain
hands over is known: the database switch, and after it a front part of the statements that are not
blank. Nothing is said here of what a session makes of its jobs. A property that every move keeps is
a property of every run. -/

namespace SqlBatch.Run

def jobsOf (p : Policy) (statements : List Statement) : List Job :=
  (statements.filter (!·.isEmpty)).map (Course.jobOf p)

section
variable (p : Policy) {x : Statement}

theorem jobsOf_cons (x : Statement) (xs : List Statement) :
    jobsOf p (x :: xs) = jobsOf p [x] ++ jobsOf p xs := by
  simp only [jobsOf, ← List.map_append, ← List.filter_append, List.singleton_append]

theorem jobsOf_of_isEmpty (hx : x.isEmpty = true) : jobsOf p [x] = [] := by
  simp [jobsOf, hx]

theorem jobsOf_of_not_isEmpty (hx : x.isEmpty = false) : jobsOf p [x] = [Course.jobOf p x] := by
  simp [jobsOf, hx]

end

namespace Course
variable {σ : Type}

/-- A run comes from one state to another and hands over `jobs` on the way. -/
inductive Moves (s : Session σ) (p : Policy) (file : String) :
    List Job → Course σ → Course σ → Prop
  | refl (c : Course σ) : Moves s p file [] c c
  | trans {jobs jobs' : List Job} {c c' c'' : Course σ} :
      Moves s p file jobs c c' → Moves s p file jobs' c' c'' →
      Moves s p file (jobs ++ jobs') c c''
  | note (c : Course σ) (n : Note) : Moves s p file [] c (c.note n)
  | count (c : Course σ) (n : Nat) : Moves s p file [] c (c.countAttempts n)
  | settle (c : Course σ) (index : Nat) (o : Outcome) :
      Moves s p file [] c (c.settle p file index o)
  | ask (c : Course σ) (job : Job) : Moves s p file [job] c (ask s c job).1
  | submit (c : Course σ) (job : Job) :
      p.mode = .concurrent → Moves s p file [job] c (c.submitted s job)
  | answer (c : Course σ) (a : Answer σ) :
      p.mode = .concurrent → s.next? c.session = some a → Moves s p file [] c (c.answered a)
  | keep (c : Course σ) (message : String) :
      c.report.databaseError = none →
      Moves s p file [] c { c with report := { c.report with databaseError := some message } }
  | refuse (c : Course σ) (f : Failure) :
      p.force = false → Moves s p file [] c { c with ended := some f }
  | sort (c : Course σ) : Moves s p file [] c { c with report := c.report.sorted }

namespace Moves
variable {s : Session σ} {p : Policy} {file : String} {jobs : List Job} {c c' c'' : Course σ}

theorem andThen (h : Moves s p file jobs c c') (hrest : Moves s p file [] c' c'') :
    Moves s p file jobs c c'' := by
  have hall := h.trans hrest
  rwa [List.append_nil] at hall

section
variable (s p file) (c)

theorem progress (v : Verbosity) (n : Note) : Moves s p file [] c (c.progress p v n) := by
  unfold Course.progress
  split
  · exact .note c n
  · exact .refl c

theorem announce (x : Statement) : Moves s p file [] c (c.announce p file x) := by
  unfold Course.announce
  split
  · exact .note c _
  · exact .refl c

theorem announce_all (statements : List Statement) :
    Moves s p file [] c (statements.foldl (fun c x => c.announce p file x) c) := by
  induction statements generalizing c with
  | nil => exact .refl c
  | cons x xs ih => exact (announce s p file c x).andThen (ih (c.announce p file x))

theorem skipBlank (x : Statement) : Moves s p file [] c (c.skipBlank p file x) := by
  have hnote : Moves s p file [] c (c.note (.skippingBlank x.index)) := .note c _
  exact hnote.andThen (.settle _ x.index (.ok ()))

theorem runSerial (x : Statement) : Moves s p file (jobsOf p [x]) c (c.runSerial s p file x) := by
  have hstarted : Moves s p file [] c ((c.announce p file x).countAttempts 1) :=
    (announce s p file c x).andThen (.count _ 1)
  unfold Course.runSerial
  cases hx : x.isEmpty with
  | true =>
    rw [jobsOf_of_isEmpty p hx]
    exact hstarted.andThen (skipBlank s p file _ x)
  | false =>
    rw [jobsOf_of_not_isEmpty p hx]
    have hasked := hstarted.trans (.ask _ (jobOf p x))
    exact hasked.andThen (.settle _ x.index _)

variable {p} in
theorem handOver (hmode : p.mode = .concurrent) (x : Statement) :
    Moves s p file (jobsOf p [x]) c (c.handOver s p file x) := by
  cases hx : x.isEmpty with
  | true =>
    rw [handOver_of_isEmpty file hx, jobsOf_of_isEmpty p hx]
    exact skipBlank s p file c x
  | false =>
    have hsubmitted : Moves s p file [jobOf p x] c (c.submitted s (jobOf p x)) :=
      .submit c _ hmode
    rw [jobsOf_of_not_isEmpty p hx]
    cases houtcome : (s.submit c.session (jobOf p x)).outcome with
    | none =>
      rw [handOver_of_silence file hx houtcome]
      exact hsubmitted
    | some o =>
      rw [handOver_of_outcome file hx houtcome]
      exact hsubmitted.andThen (.settle _ x.index o)

theorem foldl {f : Course σ → Statement → Course σ}
    (hf : ∀ c x, Moves s p file (jobsOf p [x]) c (f c x)) (statements : List Statement) :
    ∃ taken, taken <+: jobsOf p statements ∧
      Moves s p file taken c (statements.foldl (fun c x => c.unlessEnded fun c => f c x) c) ∧
      ((statements.foldl (fun c x => c.unlessEnded fun c => f c x) c).ended = none →
        taken = jobsOf p statements) := by
  induction statements generalizing c with
  | nil => exact ⟨[], List.prefix_rfl, .refl c, fun _ => rfl⟩
  | cons x xs ih =>
    -- nothing is taken from the statement on at which the run has ended
    cases hended : c.ended with
    | some e =>
      have hsome : c.ended.isSome = true := by rw [hended]; rfl
      rw [foldl_unlessEnded_of_isSome f hsome, hended]
      exact ⟨[], List.nil_prefix, .refl c, fun hnone => by simp at hnone⟩
    | none =>
      obtain ⟨taken, hprefix, hmoves, hall⟩ := ih (f c x)
      rw [List.foldl_cons, unlessEnded_of_none hended, jobsOf_cons]
      refine ⟨jobsOf p [x] ++ taken, (List.prefix_append_right_inj _).2 hprefix, ?_, ?_⟩
      · exact (hf c x).trans hmoves
      · intro hnone
        rw [hall hnone]

variable {p} in
theorem drain (hmode : p.mode = .concurrent) (n : Nat) :
    Moves s p file [] c (c.drain s p file n) := by
  induction n generalizing c with
  | zero => exact .refl c
  | succ n ih =>
    unfold Course.drain
    split
    · exact .refl c
    · cases hnext : s.next? c.session with
      | none => exact .refl c
      | some a =>
        have hanswered : Moves s p file [] c (c.answered a) := .answer c a hmode hnext
        have hsettled := hanswered.andThen (.settle _ a.index a.outcome)
        exact hsettled.andThen (ih _)

theorem runStatements (statements : List Statement) :
    ∃ taken, taken <+: jobsOf p statements ∧
      Moves s p file taken c (c.runStatements s p file statements) ∧
      ((c.runStatements s p file statements).ended = none → taken = jobsOf p statements) := by
  unfold Course.runStatements
  cases hmode : p.mode with
  | serial => exact foldl s p file c (runSerial s p file) statements
  | concurrent =>
    have hstarted := (announce_all s p file c statements).andThen (.count _ statements.length)
    obtain ⟨taken, hprefix, hhanded, hall⟩ :=
      foldl s p file ((statements.foldl (fun c x => c.announce p file x) c).countAttempts
        statements.length) (handOver s file · hmode) statements
    refine ⟨taken, hprefix, (hstarted.trans hhanded).andThen (drain s file _ hmode _), ?_⟩
    -- draining does not take back the end of a run
    intro hnone
    apply hall
    by_contra hended
    rw [concurrent, drain_of_isSome file (Option.isSome_iff_ne_none.2 hended)] at hnone
    exact hended hnone

theorem selectDatabase (herror : c.report.databaseError = none) :
    Moves s p file (switchJob? s p c.session).toList c (c.selectDatabase s p) := by
  unfold Course.selectDatabase switchJob?
  cases p.database with
  | none => exact .refl c
  | some database =>
    cases hsql : (s.backend c.session).useDatabase? database with
    | none => simpa [hsql] using .note c _
    | some sql =>
      have hannounced : Moves s p file [] c
          (c.progress p .statements (.settingDatabase database)) := progress ..
      have hasked := hannounced.trans (.ask _ ⟨0, sql, p.timeout⟩)
      simp only [Option.bind_some, hsql, Option.map_some, Option.toList_some]
      split
      · exact hasked.andThen (progress ..)
      · rename_i f _
        have hnoted := hasked.andThen (.note _ (.switchFailed f.message))
        split
        · refine hnoted.andThen (.keep _ f.message ?_)
          simpa [Course.ask] using herror
        · rename_i hforce
          exact hnoted.andThen (.refuse _ _ (by simpa using hforce))

theorem conclude : Moves s p file [] c (c.conclude p file) :=
  andThen (.sort c) (progress ..)

end
end Moves

/-- A run hands over the database switch, if there is one, and then a front part of its statements,
and all of them if it does not end early. -/
theorem moves_execute (s : Session σ) (p : Policy) (file : String) (statements : List Statement)
    (st : σ) : ∃ taken, taken <+: jobsOf p statements ∧
      Moves s p file ((switchJob? s p st).toList ++ taken)
        { session := st, report := { file := file } } (execute s p file statements st) ∧
      ((execute s p file statements st).ended = none → taken = jobsOf p statements) := by
  have hstarted : Moves s p file [] { session := st, report := { file := file } }
      (start p file st) := Moves.progress ..
  have hswitched := hstarted.trans
    (.selectDatabase s p file (start p file st) (by rw [report_start]))
  rw [List.nil_append, session_start] at hswitched
  unfold execute
  -- a run that the switch ends hands over nothing else
  cases hended : ((start p file st).selectDatabase s p).ended with
  | some f =>
    have hsome : ((start p file st).selectDatabase s p).ended.isSome = true := by
      rw [hended]; rfl
    rw [unlessEnded_of_isSome hsome, unlessEnded_of_isSome hsome]
    refine ⟨[], List.nil_prefix, by rwa [List.append_nil], fun hnone => ?_⟩
    rw [hended] at hnone
    contradiction
  | none =>
    rw [unlessEnded_of_none hended]
    obtain ⟨taken, hprefix, hmoves, hall⟩ :=
      Moves.runStatements s p file ((start p file st).selectDatabase s p) statements
    unfold unlessEnded
    split
    · exact ⟨taken, hprefix, hswitched.trans hmoves, hall⟩
    · refine ⟨taken, hprefix, (hswitched.trans hmoves).andThen (Moves.conclude ..), ?_⟩
      rw [ended_conclude]
      exact hall

end Course
end SqlBatch.Run
