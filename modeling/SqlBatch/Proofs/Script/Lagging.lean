import SqlBatch.Proofs.Script.Rendered
import SqlBatch.Proofs.Script.Switched

/-! Reading behind the place where a statement was written. If a comment or a directive is passed
over in a rendered script, the statements that follow are closed later than they were written, and
less is left for them. They could all be read nevertheless only if the delimiter did not change any
more: the last directive line would have been read in part. -/

namespace SqlBatch.Script

open Text

theorem weight_directiveLine (delimiter : String) :
    weight (directiveLine delimiter).toList = weight keyword + weight delimiter.toList := by
  rw [directiveLine, String.toList_append, String.toList_append, weight_append, weight_append]
  have hlead : weight "DELIMITER ".toList = weight keyword := by decide
  have hfeed : weight "\n".toList = 0 := by decide
  omega

theorem weight_switch (active delimiter : String) :
    weight (switch active delimiter) = change active.toList delimiter.toList := by
  unfold switch change
  by_cases h : delimiter = active
  · rw [if_pos h, if_pos (by rw [h]), weight_nil]
  · rw [if_neg h, if_neg fun heq => h (String.toList_inj.1 heq), weight_directiveLine]

theorem weight_written_concat (active : String) (xs : List Statement) (z : Statement) :
    weight (written active (xs ++ [z])) = toll active.toList xs z.delimiter.toList +
      (weight z.sql.toList + weight z.delimiter.toList) := by
  induction xs generalizing active with
  | nil =>
    rw [List.nil_append, written_cons, weight_append, weight_glued, weight_switch]
    rfl
  | cons x xs ih =>
    rw [List.cons_append, written_cons, weight_append, weight_glued, weight_switch, ih, toll]
    omega

theorem not_isBlank_head_written {active : String} {xs : List Statement} (hne : xs ≠ [])
    (hgood : ∀ x ∈ xs, WellFormed x) (hall : ∀ x ∈ xs, x.delimiter = active) :
    ∀ c ∈ (written active xs).head?, isBlank c = false := by
  intro c hc
  obtain ⟨x, xs, rfl⟩ := List.exists_cons_of_ne_nil hne
  obtain rfl := hall x List.mem_cons_self
  have hwell := hgood x List.mem_cons_self
  rw [written_cons, switch, if_pos rfl, List.nil_append] at hc
  cases hsql : x.sql.toList with
  | nil =>
    obtain ⟨e, es, hdelimiter⟩ := List.exists_cons_of_ne_nil hwell.nameable.nonempty
    rw [hsql, List.nil_append, hdelimiter] at hc
    apply hwell.nameable.not_isBlank_head
    rw [hdelimiter]
    exact hc
  | cons e es =>
    apply hwell.starts
    rw [hsql] at hc ⊢
    exact hc

section
variable {cs behind rest : List Char}

theorem exists_lag {active delimiter : String} (hname : Nameable delimiter.toList)
    (hne : delimiter ≠ active) (hsuffix : cs <:+ switch active delimiter ++ behind)
    (hlong : weight (switch active delimiter ++ behind) ≤ weight cs + weight delimiter.toList)
    (hshort : weight cs < weight (switch active delimiter ++ behind)) :
    ∃ lag, cs = lag ++ '\n' :: behind ∧ (∀ c ∈ lag, isBreak c = false) ∧
      weight lag < weight keyword + weight delimiter.toList := by
  have hkeyword := weight_keyword
  have hline : switch active delimiter ++ behind =
      ("DELIMITER ".toList ++ delimiter.toList) ++ '\n' :: behind := by
    rw [switch, if_neg hne]
    simp [directiveLine]
  have hlead : ∀ c ∈ "DELIMITER ".toList, isBreak c = false := forall_mem_of_all (by decide)
  have hbreak : ∀ c ∈ "DELIMITER ".toList ++ delimiter.toList, isBreak c = false :=
    fun c hc => (List.mem_append.1 hc).elim (hlead c) (hname.line c)
  have hweight : weight (switch active delimiter ++ behind) =
      weight keyword + weight delimiter.toList + weight behind := by
    have hne' : delimiter.toList ≠ active.toList := fun heq => hne (String.toList_inj.1 heq)
    rw [weight_append, weight_switch, change, if_neg hne']
  rw [hline] at hsuffix
  have hbehind : '\n' :: behind <:+ cs := by
    rcases List.suffix_or_suffix_of_suffix hsuffix (List.suffix_append _ ('\n' :: behind)) with
      hshorter | hlonger
    · have hle := weight_le_of_suffix hshorter
      rw [weight_cons_of_isBlank isBlank_lineFeed] at hle
      omega
    · exact hlonger
  obtain ⟨lag, rfl⟩ := hbehind
  refine ⟨lag, rfl, fun c hc => hbreak c ?_, ?_⟩
  · obtain ⟨before, hbefore⟩ := hsuffix
    rw [← List.append_assoc, List.append_cancel_right_eq] at hbefore
    rw [← hbefore]
    exact List.mem_append_right _ hc
  · rw [weight_append, weight_cons_of_isBlank isBlank_lineFeed] at hshort
    omega

theorem suffix_of_weight_lt (front : List Char) (h : rest <:+ front ++ behind)
    (hless : weight rest < weight behind) : rest <:+ behind := by
  rcases List.suffix_or_suffix_of_suffix h (List.suffix_append front behind) with hshort | hlong
  · exact hshort
  · exact absurd (weight_le_of_suffix hlong) (Nat.not_le.2 hless)

theorem eq_append_of_lag {delimiter front : List Char} (hname : Nameable delimiter)
    (hhead : ∀ c ∈ behind.head?, isBlank c = false)
    (hsuffix : delimiter ++ rest <:+ front ++ '\n' :: behind) (hless : weight rest < weight behind)
    (hslack : weight behind ≤ weight rest + weight delimiter) : behind = delimiter ++ rest := by
  rcases List.suffix_or_suffix_of_suffix hsuffix (List.suffix_append front ('\n' :: behind)) with
    hshorter | ⟨more, hmore⟩
  · rcases List.suffix_cons_iff.1 hshorter with hsame | ⟨gap, rfl⟩
    · obtain ⟨e, es, rfl⟩ := List.exists_cons_of_ne_nil hname.nonempty
      obtain ⟨rfl, -⟩ := List.cons.inj hsame
      exact absurd rfl (Scanner.ne_of_isBlank isBlank_lineFeed (hname.not_isBlank_head rfl))
    · rw [weight_append, weight_append] at hslack
      rw [eq_nil_of_allBlank _ (weight_eq_zero.1 (by omega)) hhead, List.nil_append]
  · exfalso
    rcases List.append_eq_append_iff.1 hmore with ⟨part, hpart, hbehind⟩ | ⟨part, hpart, hrest⟩
    · cases part with
      | nil =>
        have hweight := congrArg weight hbehind
        rw [weight_cons_of_isBlank isBlank_lineFeed, List.nil_append] at hweight
        omega
      | cons e part =>
        obtain ⟨rfl, -⟩ := List.cons.inj hbehind
        have hbreak := hname.line '\n' (by rw [hpart]; simp)
        exact absurd hbreak (by decide)
    · rw [hrest, weight_append, weight_cons_of_isBlank isBlank_lineFeed] at hless
      omega

end

namespace Scanner

/-- The scan of `cs` closes the statements `xs` and keeps the text of `z`, under its delimiter. -/
structure Leaves (t : Scanner) (cs : List Char) (xs : List Statement) (z : Statement) : Prop where
  statements : (t.scan cs).statements.toList = t.statements.toList ++ xs
  trimmed : (t.scan cs).kept.trimmed = z.sql.toList
  delimiter : (t.scan cs).delimiter = z.delimiter.toList

theorem Closes.budget {t s : Scanner} {cs rest : List Char} (h : Closes t cs s rest) :
    change t.delimiter s.delimiter + weight s.kept.trimmed + weight s.delimiter + weight rest ≤
      weight t.kept.text + weight cs := by
  have hbudget := h.quiet.budget
  rw [weight_append, ← weight_trimmed] at hbudget
  omega

theorem Closes.weight_lt {t s : Scanner} {cs rest : List Char} {active : String} {x : Statement}
    {xs : List Statement} (h : Closes t cs s rest) (hkept : t.kept.text = [])
    (hdelimiter : t.delimiter = active.toList) (htrimmed : s.kept.trimmed = x.sql.toList)
    (hsame : s.delimiter = x.delimiter.toList)
    (hless : weight cs < weight (written active (x :: xs))) :
    weight rest < weight (written x.delimiter xs) := by
  have hbudget := h.budget
  rw [hdelimiter, hsame, htrimmed, hkept, weight_nil] at hbudget
  rw [written_cons, weight_append, weight_glued, weight_switch] at hless
  omega

theorem Quiet.not_lagging {P : List Char → Prop} {t s : Scanner} {cs rest : List Char}
    {active : String} {x : Statement} (h : Quiet P t cs s rest) (hwell : WellFormed x)
    (hkept : t.kept.text = []) (hdelimiter : t.delimiter = active.toList)
    (hne : x.delimiter ≠ active) (hsame : s.delimiter = x.delimiter.toList)
    (htrimmed : s.kept.trimmed = x.sql.toList)
    (hsuffix : cs <:+ switch active x.delimiter ++
      (x.sql.toList ++ (x.delimiter.toList ++ '\n' :: rest)))
    (hslack : weight (switch active x.delimiter ++
      (x.sql.toList ++ (x.delimiter.toList ++ '\n' :: rest))) ≤
        weight cs + weight x.delimiter.toList)
    (hless : weight cs < weight (switch active x.delimiter ++
      (x.sql.toList ++ (x.delimiter.toList ++ '\n' :: rest)))) : False := by
  obtain ⟨lag, rfl, hlag, hlight⟩ := exists_lag hwell.nameable hne hsuffix hslack hless
  have hother : t.delimiter ≠ x.delimiter.toList := by
    rw [hdelimiter]
    exact fun heq => hne (String.toList_inj.1 heq).symm
  exact h.not_switched hwell.nameable hwell.ends hkept hother hsame htrimmed hlag hlight

namespace Leaves
variable {t : Scanner} {cs : List Char} {x z : Statement} {xs : List Statement} {active : String}

theorem quiet (h : Leaves t cs [] z) : Quiet (fun _ => True) t cs (t.scan cs) [] := by
  refine quiet_of_statements (Array.toList_inj.1 ?_)
  rw [h.statements, List.append_nil]

theorem close (h : Leaves t cs (x :: xs) z) : ∃ s rest, Closes t cs s rest ∧
    s.kept.trimmed = x.sql.toList ∧ s.delimiter = x.delimiter.toList ∧
    Leaves s.commit rest xs z := by
  obtain ⟨s, rest, hcloses, hscan, htrimmed, hdelimiter, hstatements⟩ :=
    exists_closes h.statements
  refine ⟨s, rest, hcloses, htrimmed, hdelimiter, hstatements, ?_, ?_⟩
  · rw [← hscan, h.trimmed]
  · rw [← hscan, h.delimiter]

theorem slack (h : Leaves t cs xs z) (hkept : t.kept.text = [])
    (hdelimiter : t.delimiter = active.toList) :
    weight (written active (xs ++ [z])) ≤ weight cs + weight z.delimiter.toList := by
  obtain ⟨closed, hclosed, hbudget⟩ := (runs_scan t cs).budget
  rw [h.statements, List.append_cancel_left_eq] at hclosed
  rw [← hclosed, hkept, hdelimiter, h.delimiter, ← weight_trimmed, h.trimmed, weight_nil] at hbudget
  rw [weight_written_concat]
  omega

theorem not_lagging_last (h : Leaves t cs (x :: xs) z) (hkept : t.kept.text = [])
    (hdelimiter : t.delimiter = active.toList) (hgood : ∀ y ∈ x :: (xs ++ [z]), WellFormed y)
    (hsuffix : cs <:+ written active (x :: (xs ++ [z])))
    (hless : weight cs < weight (written active (x :: (xs ++ [z]))))
    (hne : x.delimiter ≠ active) (hall : ∀ y ∈ xs ++ [z], y.delimiter = x.delimiter) : False := by
  obtain ⟨hwell, hrest⟩ := List.forall_mem_cons.1 hgood
  obtain ⟨s, rest, hcloses, htrimmed, hsame, hnext⟩ := h.close
  have hz : z.delimiter = x.delimiter := hall z (by simp)
  have hless' := hcloses.weight_lt hkept hdelimiter htrimmed hsame hless
  have hslack := h.slack hkept hdelimiter
  have hslack' := hnext.slack s.text_commit hsame
  have hhead := not_isBlank_head_written (by simp) hrest hall
  have hread := hcloses.quiet.suffix
  have hquiet := hcloses.quiet
  rw [hsame] at hread hquiet
  rw [hz] at hslack hslack'
  rw [List.cons_append] at hslack
  rw [written_cons] at hsuffix hless hslack
  generalize written x.delimiter (xs ++ [z]) = behind at *
  -- the delimiter stands at the start of what is written behind its statement
  have hplace : x.delimiter.toList ++ rest <:+
      (switch active x.delimiter ++ (x.sql.toList ++ x.delimiter.toList)) ++ '\n' :: behind := by
    refine hread.trans ?_
    simpa using hsuffix
  rw [← eq_append_of_lag hwell.nameable hhead hplace hless' hslack'] at hquiet
  exact hquiet.not_lagging hwell hkept hdelimiter hne hsame htrimmed hsuffix hslack hless

theorem not_lagging (h : Leaves t cs xs z) (hkept : t.kept.text = [])
    (hdelimiter : t.delimiter = active.toList) (hgood : ∀ x ∈ xs ++ [z], WellFormed x)
    (hsuffix : cs <:+ written active (xs ++ [z]))
    (hless : weight cs < weight (written active (xs ++ [z])))
    (hother : ∃ x ∈ xs ++ [z], x.delimiter ≠ active) : False := by
  induction xs generalizing t cs active with
  | nil =>
    obtain ⟨x, hx, hne⟩ := hother
    obtain rfl : x = z := by simpa using hx
    have hslack := h.slack hkept hdelimiter
    rw [List.nil_append, written_cons, written_nil] at hsuffix hless hslack
    exact h.quiet.not_lagging (hgood x hx) hkept hdelimiter hne h.delimiter h.trimmed hsuffix hslack
      hless
  | cons x xs ih =>
    by_cases hall : ∀ y ∈ xs ++ [z], y.delimiter = x.delimiter
    · refine h.not_lagging_last hkept hdelimiter hgood hsuffix hless ?_ hall
      rintro heq
      obtain ⟨y, hy, hne⟩ := hother
      rcases List.mem_cons.1 hy with rfl | hy
      · exact hne heq
      · exact hne ((hall y hy).trans heq)
    · -- a later change is in front of the run behind the first statement
      obtain ⟨s, rest, hcloses, htrimmed, hsame, hnext⟩ := h.close
      have hless' := hcloses.weight_lt hkept hdelimiter htrimmed hsame hless
      have hread := hcloses.quiet.suffix
      rw [List.cons_append, written_cons] at hsuffix
      have hrest : rest <:+ written x.delimiter (xs ++ [z]) := by
        refine suffix_of_weight_lt (switch active x.delimiter ++
          (x.sql.toList ++ (x.delimiter.toList ++ ['\n']))) ?_ hless'
        refine ((List.suffix_append _ _).trans hread).trans ?_
        simpa using hsuffix
      exact ih hnext s.text_commit hsame (List.forall_mem_cons.1 hgood).2 hrest hless'
        (by simpa using hall)

end Leaves
end Scanner
end SqlBatch.Script
