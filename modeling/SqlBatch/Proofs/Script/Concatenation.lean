import SqlBatch.Proofs.Script.WellFormed

/-! Scripts put one behind the other. Whatever stands behind a line feed, no step in front of it
looks there, so a script that ends with one is read as it is alone. If it ends in plain text with
nothing but blanks kept, the text behind it is read as a script of its own, under the delimiter then
in force. -/

namespace SqlBatch.Script

open Text

def EndsLine (cs : List Char) : Prop := cs = [] ∨ ∃ front, cs = front ++ ['\n']

theorem EndsLine.suffix {cs rest : List Char} (h : EndsLine cs) (hsuffix : rest <:+ cs) :
    EndsLine rest := by
  rcases h with rfl | ⟨front, rfl⟩
  · exact Or.inl (List.suffix_nil.1 hsuffix)
  · rcases List.suffix_concat_iff.1 hsuffix with hnil | ⟨more, hmore, -⟩
    · exact Or.inl hnil
    · exact Or.inr ⟨more, hmore⟩

theorem line_append_right {cs : List Char} (h : (line cs).2 ≠ []) (rest : List Char) :
    line (cs ++ rest) = ((line cs).1, (line cs).2 ++ rest) := by
  have hsplit : cs ++ rest = (line cs).1 ++ ((line cs).2 ++ rest) := by
    rw [← List.append_assoc, line_append]
  rw [hsplit]
  refine line_append_of_forall (fun c hc => not_isBreak_of_mem_line hc) fun c hc => ?_
  apply isBreak_head_line_rest
  rwa [List.head?_append_of_ne_nil _ h] at hc

theorem line_rest_ne_nil (front : List Char) : (line (front ++ ['\n'])).2 ≠ [] := by
  intro hnil
  have hall := line_append (front ++ ['\n'])
  rw [hnil, List.append_nil] at hall
  have hfeed : '\n' ∈ (line (front ++ ['\n'])).1 := by
    rw [hall]
    simp
  exact absurd (not_isBreak_of_mem_line hfeed) (by decide)

theorem dropTerminator_append {cs : List Char} (h : EndsLine cs) (hne : cs ≠ [])
    (rest : List Char) : dropTerminator (cs ++ rest) = dropTerminator cs ++ rest := by
  obtain ⟨front, rfl⟩ := h.resolve_left hne
  rcases front with _ | ⟨b, _ | ⟨c, front⟩⟩
  · rfl
  · by_cases hb : b = '\r'
    · subst hb
      rfl
    · simp [dropTerminator, hb]
  · by_cases hpair : b = '\r' ∧ c = '\n'
    · obtain ⟨rfl, rfl⟩ := hpair
      rfl
    · simp only [dropTerminator, List.cons_append]
      simp_all

theorem Directive.read?_append {cs : List Char} {d : Directive} (h : read? cs = some d)
    (hline : EndsLine cs) (rest : List Char) :
    read? (cs ++ rest) = some ⟨d.token, d.rest ++ rest⟩ := by
  obtain ⟨word, after, rfl, hword, hblank, htoken, hrest⟩ := read?_eq_some.1 h
  have hne : after ≠ [] := by
    rintro rfl
    obtain ⟨front, hfront⟩ := hline.resolve_left (by simpa using ne_nil_of_word hword)
    have hfeed : '\n' ∈ word := by
      rw [← List.append_nil word, hfront]
      simp
    exact absurd (not_isBreak_of_mem_word hword hfeed) (by decide)
  have hafter : EndsLine after := hline.suffix (List.suffix_append _ _)
  have hbehind : (line after).2 ≠ [] := by
    obtain ⟨front, rfl⟩ := hafter.resolve_left hne
    exact line_rest_ne_nil front
  have hend : EndsLine (line after).2 := hafter.suffix ⟨(line after).1, line_append after⟩
  refine read?_eq_some.2 ⟨word, after ++ rest, List.append_assoc .., hword, ?_, ?_, ?_⟩
  · rwa [List.head?_append_of_ne_nil _ hne]
  · rw [line_append_right hbehind, htoken]
  · rw [line_append_right hbehind, dropTerminator_append hend hbehind, hrest]

namespace Scanner
variable {s s' : Scanner} {c : Char} {cs rest : List Char}

theorem afterDelimiter?_of_isBreak (hs : ∀ d ∈ s.delimiter, isBreak d = false)
    (hc : isBreak c = true) (cs : List Char) : s.afterDelimiter? c cs = none := by
  cases hafter : s.afterDelimiter? c cs with
  | none => rfl
  | some rest =>
    obtain ⟨hne, hfront⟩ := afterDelimiter?_eq_some.1 hafter
    obtain ⟨d, ds, hd⟩ := List.exists_cons_of_ne_nil hne
    rw [hd, List.cons_append, List.cons.injEq] at hfront
    have hbreak := hs d (by rw [hd]; exact List.mem_cons_self)
    rw [← hfront.1, hc] at hbreak
    exact Bool.noConfusion hbreak

theorem step_lineFeed (hs : ∀ d ∈ s.delimiter, isBreak d = false) :
    ∃ s', ∀ cs, s.step '\n' cs = (s', cs) := by
  have hblank : Text.isBlank '\n' = true := by decide
  cases hcontext : s.context with
  | plain =>
    refine ⟨s.keep '\n', fun cs => ?_⟩
    rw [step_of_bare hcontext (bare_of_isBlank hblank cs), stepBare, directive?_of_isBlank hblank,
      afterDelimiter?_of_isBreak hs rfl]
  | escape inside =>
    refine ⟨{ s.keepEscaped '\n' with context := resume inside }, fun cs => ?_⟩
    simp only [step, hcontext]
  | literal quote =>
    refine ⟨s.stepLiteral quote '\n', fun cs => ?_⟩
    simp only [step, hcontext]
  | comment enclosing =>
    refine ⟨s.keep '\n', fun cs => ?_⟩
    simp [step, hcontext, stepComment]

theorem directive?_of_read? {cs u : List Char} {d d' : Directive} (h : s.directive? cs = some d)
    (hread : Directive.read? u = some d') : s.directive? u = some d' := by
  unfold directive? at h ⊢
  rw [read?_of_directive? h] at h
  rw [hread]
  simp only at h ⊢
  split at h
  · rename_i hplace
    rw [if_pos hplace]
  · contradiction

/-- No step looks behind a line feed. -/
theorem step_append (hs : ∀ d ∈ s.delimiter, isBreak d = false) (h : EndsLine (c :: cs))
    (rest : List Char) : s.step c (cs ++ rest) = ((s.step c cs).1, (s.step c cs).2 ++ rest) := by
  obtain ⟨front, hfront⟩ := h.resolve_left (List.cons_ne_nil _ _)
  cases front with
  | nil =>
    obtain ⟨rfl, rfl⟩ := List.cons.inj hfront
    obtain ⟨s', hstep⟩ := step_lineFeed hs
    rw [hstep, hstep]
  | cons e front =>
    rw [List.cons_append] at hfront
    obtain ⟨rfl, rfl⟩ := List.cons.inj hfront
    have hends : EndsLook s.delimiter '\n' := by
      refine ⟨Or.inl rfl, fun hmem => ?_⟩
      exact absurd (hs '\n' (List.mem_of_mem_tail hmem)) (by decide)
    have hlike : ReadsLike s.delimiter (front ++ ['\n']) (front ++ ['\n'] ++ rest) := by
      rw [List.append_assoc]
      exact (ReadsLike.of_front (List.prefix_append _ _)).trans (.append hends front rest)
    have hread : Directive.read? (c :: (front ++ ['\n'])) = none →
        Directive.read? (c :: (front ++ ['\n'] ++ rest)) = none := by
      rw [List.append_assoc, ← List.cons_append, ← List.cons_append, List.singleton_append,
        Directive.read?_append_eq_none rfl, Directive.read?_append_eq_none rfl]
      exact id
    obtain ⟨s', unread, hnext⟩ : ∃ s' unread, s.step c (front ++ ['\n']) = (s', unread) :=
      ⟨_, _, rfl⟩
    have hexit : Exit s c (front ++ ['\n']) s' unread := by
      have hstep := exit_step s c (front ++ ['\n'])
      rwa [hnext] at hstep
    rw [hnext]
    -- the step may also see the end of the text only where it passes over something or closes
    cases hexit with
    | keep _ =>
      have hstep := step_eq_of_readsLike (c := c) hlike
        (fun hplain => directive?_eq_none hread (directive?_of_step hplain hnext)) (by rw [hnext])
      rwa [hnext] at hstep
    | marker hcs _ _ hstep _ =>
      rw [hcs, List.cons_append]
      exact hstep _
    | stop hstop =>
      cases hstop with
      | comment hplain hcomment =>
        rw [step_of_startsLineComment hplain (startsLineComment_append hcomment rest),
          line_append_right (line_rest_ne_nil front)]
      | @directive d hplain hd =>
        have hread' := Directive.read?_append (read?_of_directive? hd) h rest
        exact step_of_directive? hplain (directive?_of_read? hd hread')
      | close hplain hbare hdirective hafter =>
        obtain ⟨hne, htext⟩ := afterDelimiter?_eq_some.1 hafter
        have hafter' : s.afterDelimiter? c (front ++ ['\n'] ++ rest) = some (unread ++ rest) :=
          afterDelimiter?_eq_some.2 ⟨hne, by rw [← List.append_assoc, ← htext, List.cons_append]⟩
        exact step_of_close hplain (hlike.bare hbare) (directive?_eq_none hread hdirective) hafter'

theorem step_suffix (s : Scanner) (c : Char) (cs : List Char) : (s.step c cs).2 <:+ c :: cs := by
  have hexit := exit_step s c cs
  generalize (s.step c cs).1 = s' at hexit
  generalize (s.step c cs).2 = rest at hexit ⊢
  cases hexit with
  | keep _ => exact List.suffix_cons c cs
  | marker hcs _ _ _ _ =>
    rw [hcs]
    exact ⟨[c, _], rfl⟩
  | stop hstop => exact hstop.suffix

theorem Runs.suffix (hrun : Runs s cs s' rest) : rest <:+ cs := by
  induction hrun with
  | refl s cs => exact List.suffix_rfl
  | @step s s' c cs rest _ ih => exact ih.trans (step_suffix s c cs)

theorem Runs.append (hrun : Runs s cs s' rest) (hs : Sane s) (h : EndsLine cs)
    (behind : List Char) : Runs s (cs ++ behind) s' (rest ++ behind) := by
  induction hrun with
  | refl s cs => exact .refl s (cs ++ behind)
  | @step s s' c cs rest _ ih =>
    have hnext := ih (hs.step c cs) (h.suffix (step_suffix s c cs))
    exact .of_step (step_append hs.nameable.line h behind) hnext

theorem Sane.continues (hs : Sane s) (hplain : s.context = .plain) (hblank : s.isBlank = true) :
    Continues s.statements.toList (start (String.ofList s.delimiter)) s := by
  have htext : allBlank s.kept.text = true := by rw [← isBlank_eq, hblank]
  have hguarded : s.kept.guarded = [] := by
    rcases hs.guards.guarded with hnone | ⟨front, c, hsome⟩
    · exact hnone
    · rw [Kept.text, hsome] at htext
      simp [show Text.isBlank '\\' = false from rfl] at htext
  have hloose : allBlank s.kept.loose = true := by
    rwa [Kept.text, hguarded, List.nil_append] at htext
  refine ⟨?_, hplain, ?_, ⟨s.kept.loose, hloose, ?_⟩, Or.inr rfl⟩
  · rw [start_delimiter (by rw [String.toList_ofList]; exact hs.nameable), String.toList_ofList]
  · simp
  · have hkept : s.kept = ⟨[], s.kept.loose⟩ := by rw [← hguarded]
    rw [hkept, start_kept]
    simp [Kept.behind]

end Scanner

def atEnd (script : String) : Scanner :=
  (Scanner.start Statement.defaultDelimiter).scan script.toList

/-- Behind a script that ends with its line and leaves nothing open, another script is read as it is
alone, under the delimiter that is then in force. -/
theorem tokenize_append {a : String} (hline : a = "" ∨ ∃ front, a = front ++ "\n")
    (hplain : (atEnd a).context = .plain) (hblank : (atEnd a).isBlank = true) (b : String) :
    tokenize (a ++ b) Statement.defaultDelimiter = tokenize a Statement.defaultDelimiter ++
      (tokenize b (String.ofList (atEnd a).delimiter)).map
        (Statement.behind (tokenize a Statement.defaultDelimiter).length) := by
  have hends : EndsLine a.toList := by
    rcases hline with rfl | ⟨front, rfl⟩
    · exact Or.inl rfl
    · exact Or.inr ⟨front.toList, String.toList_append⟩
  have hstart : Scanner.Sane (Scanner.start Statement.defaultDelimiter) :=
    Scanner.sane_start (by decide)
  have hrun : Scanner.Runs (Scanner.start Statement.defaultDelimiter) a.toList (atEnd a) [] :=
    Scanner.runs_scan _ a.toList
  have hsane : Scanner.Sane (atEnd a) := hstart.of_runs hrun
  have hfirst : tokenize a Statement.defaultDelimiter = (atEnd a).statements.toList := by
    change (atEnd a).finish = _
    rw [Scanner.finish, if_pos hblank]
  have hall : (Scanner.start Statement.defaultDelimiter).scan (a ++ b).toList =
      (atEnd a).scan b.toList := by
    rw [String.toList_append]
    exact (hrun.append hstart hends b.toList).scan_eq
  have hcontinues := (hsane.continues hplain hblank).scan b.toList
  rw [hfirst, tokenize, hall]
  exact hcontinues.finish

def morning : String := "SELECT 1; DELIMITER //\nSELECT 2 // -- done\n"

theorem tokenize_append_morning :
    (∃ front, morning = front ++ "\n") ∧ (atEnd morning).context = .plain ∧
    (atEnd morning).isBlank = true ∧
    tokenize (morning ++ "SELECT ';'//\nDELIMITER ;\nSELECT 4") Statement.defaultDelimiter =
      [⟨1, "SELECT 1", ";"⟩, ⟨2, "SELECT 2", "//"⟩, ⟨3, "SELECT ';'", "//"⟩,
        ⟨4, "SELECT 4", ";"⟩] := by
  have hline : ∃ front, morning = front ++ "\n" :=
    ⟨"SELECT 1; DELIMITER //\nSELECT 2 // -- done", by decide⟩
  have hplain : (atEnd morning).context = .plain := by decide +kernel
  have hblank : (atEnd morning).isBlank = true := by decide +kernel
  refine ⟨hline, hplain, hblank, ?_⟩
  rw [tokenize_append (Or.inr hline) hplain hblank]
  decide +kernel

end SqlBatch.Script
