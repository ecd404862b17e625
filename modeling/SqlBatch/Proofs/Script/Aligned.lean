import SqlBatch.Proofs.Script.Lagging

/-! The statements of a rendered script are closed where they were written. What could be lost of
one is a comment or a directive, so its delimiter would be read late: behind the last change of the
delimiter, where its text is written once more. -/

namespace SqlBatch.Script

open Text

theorem exists_append_of_word {word sql behind cs : List Char}
    (hword : word.map Char.toLower = keyword)
    (h : sql ++ (word ++ '\n' :: behind) = word ++ cs) (hhead : cs.head?.all isBlank = false) :
    ∃ more, sql = word ++ more := by
  rcases List.append_eq_append_iff.1 h with ⟨part, hpart, hrest⟩ | ⟨more, hmore, -⟩
  · cases part with
    | nil => exact ⟨[], by rw [hpart, List.append_nil, List.append_nil]⟩
    | cons e part =>
      exfalso
      cases sql with
      | nil =>
        rw [List.nil_append] at hpart
        rw [← hpart, List.append_cancel_left_eq] at hrest
        rw [← hrest, List.head?_cons, Option.all_some] at hhead
        exact absurd hhead (by decide)
      | cons f sql =>
        obtain ⟨g, word, rfl⟩ : ∃ g word', word = g :: word' := ⟨f, _, hpart⟩
        obtain ⟨rfl, -⟩ := List.cons.inj hrest
        have hfirst : g.toLower = 'd' := (List.cons.inj hword).1
        have htail : word.map Char.toLower = keyword.tail := (List.cons.inj hword).2
        have hmem : g.toLower ∈ keyword.tail := by
          rw [← htail, (List.cons.inj hpart).2]
          exact List.mem_map_of_mem (by simp)
        rw [hfirst] at hmem
        exact absurd hmem (by decide)
  · exact ⟨more, hmore⟩

namespace Scanner

theorem Quiet.not_delimiter {s s' : Scanner} {cs rest more : List Char}
    (h : Quiet (· = []) s cs s' rest) (hplain : s.context = .plain) (hkept : s.kept.text = [])
    (hword : s.delimiter.map Char.toLower = keyword)
    (htrimmed : s'.kept.trimmed = s.delimiter ++ more) : False := by
  obtain ⟨w, word, hdelimiter⟩ : ∃ w word, s.delimiter = w :: word := by
    refine List.exists_cons_of_ne_nil fun hnil => ?_
    rw [hnil] at hword
    exact absurd hword (by decide)
  rw [hdelimiter] at hword
  obtain ⟨gap, tail, hgap, -, hall⟩ := s'.kept.exists_text_eq
  rw [htrimmed, hdelimiter] at hall
  have htext : s'.kept.text = s.kept.text ++ (gap ++ w :: (word ++ (more ++ tail))) := by
    rw [hall, hkept]
    simp
  have hw : IsSafe w := isSafe_of_mem_word hword List.mem_cons_self
  obtain ⟨s₁, cs₁, s₂, hbefore, htext₁, hstep, hkeeps, hafter⟩ := h.exists_keep hw.not_isMark htext
  have hplain₁ : s₁.context = .plain := hbefore.plain hplain (isSafe_of_allBlank hgap) htext₁
  have htext₂ : s'.kept.text = s₂.kept.text ++ (word ++ (more ++ tail)) := by
    rw [htext, hkeeps.text, htext₁]
    simp
  obtain ⟨behind, hbehind⟩ := hafter.contiguous
    (hkeeps.inLine (not_isBlank_of_mem_word hword List.mem_cons_self)) word
    (fun e he => not_isBreak_of_mem_word hword (List.mem_cons_of_mem _ he)) htext₂
  have hcloses : s₁.afterDelimiter? w cs₁ = some behind := by
    refine afterDelimiter?_eq_some.2 ?_
    rw [hbefore.delimiter_eq, hdelimiter, ← hbehind]
    exact ⟨List.cons_ne_nil _ _, rfl⟩
  have hbare : Bare w cs₁ :=
    bare_of_step hplain₁ (hw.ne (by decide) (by decide)) hw.not_isQuote (by rw [hstep])
  rw [step_of_close hplain₁ hbare (directive?_of_step hplain₁ hstep) hcloses] at hstep
  obtain ⟨rfl, -⟩ := Prod.mk.inj hstep
  have hsize := congrArg Array.size hkeeps.statements
  rw [statements_commit, Array.size_push] at hsize
  omega

namespace Leaves
variable {t : Scanner} {cs : List Char} {x z : Statement} {xs : List Statement} {active : String}

theorem exists_exact (h : Leaves t cs xs z) (hall : ∀ x ∈ xs ++ [z], x.delimiter = active)
    (hexact : weight (written active (xs ++ [z])) = weight cs + weight active.toList) :
    ∃ y ys s rest, xs ++ [z] = y :: ys ∧ Quiet (fun _ => True) t cs s rest ∧
      s.kept.trimmed = y.sql.toList ∧ s.delimiter = active.toList ∧
      weight cs ≤ weight s.kept.text + weight rest := by
  have hz : z.delimiter = active := hall z (by simp)
  cases xs with
  | nil =>
    refine ⟨z, [], t.scan cs, [], rfl, h.quiet, h.trimmed, by rw [h.delimiter, hz], ?_⟩
    rw [weight_written_concat, hz, toll, change_self] at hexact
    rw [← weight_trimmed, h.trimmed]
    omega
  | cons x xs =>
    have hx : x.delimiter = active := hall x (by simp)
    obtain ⟨s, rest, hcloses, htrimmed, hsame, hnext⟩ := h.close
    have hslack := hnext.slack s.text_commit hsame
    refine ⟨x, xs ++ [z], s, s.delimiter ++ rest, rfl, hcloses.quiet, htrimmed,
      by rw [hsame, hx], ?_⟩
    rw [List.cons_append, written_cons, weight_append, weight_glued, weight_switch, hx,
      change_self] at hexact
    rw [hx, hz] at hslack
    rw [← weight_trimmed, htrimmed, weight_append, hsame, hx]
    omega

theorem not_keyword (h : Leaves t cs xs z) (hplain : t.context = .plain)
    (hkept : t.kept.text = []) (hdelimiter : t.delimiter = active.toList)
    (hall : ∀ x ∈ xs ++ [z], x.delimiter = active)
    (hword : active.toList.map Char.toLower = keyword)
    (hwritten : written active (xs ++ [z]) = active.toList ++ cs)
    (hhead : cs.head?.all Text.isBlank = false) : False := by
  have hexact : weight (written active (xs ++ [z])) = weight cs + weight active.toList := by
    rw [hwritten, weight_append, Nat.add_comm]
  obtain ⟨y, ys, s, rest, hys, hquiet, htrimmed, hsame, hweight⟩ := h.exists_exact hall hexact
  have hy : y.delimiter = active := hall y (by rw [hys]; exact List.mem_cons_self)
  rw [hys, written_cons, hy, switch, if_pos rfl, List.nil_append] at hwritten
  obtain ⟨more, hmore⟩ := exists_append_of_word hword hwritten hhead
  have hnames := hquiet.names_nothing (hsame.trans hdelimiter.symm) (by
    have hkeyword := weight_keyword
    rw [hkept, weight_nil]
    omega)
  rw [← hdelimiter] at hword hmore
  exact hnames.not_delimiter hplain hkept hword (htrimmed.trans hmore)

theorem exists_late {s s₁ : Scanner} {c : Char} {rest : List Char}
    (h : Leaves s₁ rest (x :: xs) z) (hstop : Stop s c cs s₁ rest)
    (hopen : s₁.statements = s.statements) (hdelimiter : s.delimiter = x.delimiter.toList)
    (hgood : ∀ y ∈ x :: (xs ++ [z]), WellFormed y)
    (htext : s.kept.text ++ c :: cs =
      x.sql.toList ++ (x.delimiter.toList ++ '\n' :: written x.delimiter (xs ++ [z]))) :
    ∃ s₂ behind, Closes s₁ rest s₂ behind ∧ s₂.kept.trimmed = x.sql.toList ∧
      s₂.delimiter = x.delimiter.toList ∧ Leaves s₂.commit behind xs z ∧
      written x.delimiter (xs ++ [z]) = x.delimiter.toList ++ behind ∧
      ∀ y ∈ xs ++ [z], y.delimiter = x.delimiter := by
  obtain ⟨hwell, hrest⟩ := List.forall_mem_cons.1 hgood
  obtain ⟨s₂, behind, hcloses, htrimmed, hsame, hnext⟩ := h.close
  refine ⟨s₂, behind, hcloses, htrimmed, hsame, hnext, ?_⟩
  have hslack := hnext.slack s₂.text_commit hsame
  generalize hwritten : written x.delimiter (xs ++ [z]) = unread at htext hslack ⊢
  have hless : weight behind < weight unread := by
    have hlost := hstop.weight_lt hopen hdelimiter.symm [] x.delimiter.toList
    have hbudget := hcloses.budget
    have hall := congrArg weight htext
    simp only [toll, hdelimiter, change_self] at hlost
    rw [htrimmed, hsame] at hbudget
    rw [weight_append, weight_glued] at hall
    omega
  have hplace : x.delimiter.toList ++ behind <:+
      (x.sql.toList ++ x.delimiter.toList) ++ '\n' :: unread := by
    have hsuffix := hcloses.quiet.suffix.trans hstop.suffix
    rw [hsame] at hsuffix
    rw [List.append_assoc, ← htext]
    exact hsuffix.trans (List.suffix_append _ _)
  have hall : ∀ y ∈ xs ++ [z], y.delimiter = x.delimiter := by
    by_contra hsome
    have hbehind : behind <:+ unread := by
      refine suffix_of_weight_lt (x.sql.toList ++ x.delimiter.toList ++ ['\n']) ?_ hless
      refine (List.suffix_append _ _).trans (hplace.trans ?_)
      simp
    rw [← hwritten] at hbehind hless
    exact hnext.not_lagging s₂.text_commit hsame hrest hbehind hless (by simpa using hsome)
  refine ⟨?_, hall⟩
  have hhead := not_isBlank_head_written (by simp) hrest hall
  rw [hwritten] at hhead
  rw [hall z (by simp)] at hslack
  exact eq_append_of_lag hwell.nameable hhead hplace hless hslack

theorem not_comment {s : Scanner} {c : Char} {cs : List Char}
    (h : Leaves s (line cs).2 (x :: xs) z) (hplain : s.context = .plain)
    (hline : startsLineComment c cs = true) (hdelimiter : s.delimiter = x.delimiter.toList)
    (hgood : ∀ y ∈ x :: (xs ++ [z]), WellFormed y)
    (htext : s.kept.text ++ c :: cs =
      x.sql.toList ++ (x.delimiter.toList ++ '\n' :: written x.delimiter (xs ++ [z]))) : False := by
  have hwell := hgood x List.mem_cons_self
  obtain ⟨s₂, behind, hcloses, hsql, hd, -, hwritten, -⟩ :=
    h.exists_late (.comment hplain hline) rfl hdelimiter hgood htext
  have hquiet := hcloses.quiet
  rw [hd, ← hwritten] at hquiet
  obtain ⟨tail, htail, hagain⟩ := hquiet.comment_lost hwell.nameable hplain htext hline hsql
  have hbare := hcloses.bare c tail (hd.trans htail)
  have hmarker := startsLineComment_append hagain behind
  rw [hbare.line] at hmarker
  exact Bool.noConfusion hmarker

theorem not_directive {s : Scanner} {c : Char} {cs : List Char} {d : Directive}
    (h : Leaves (s.redefine d.token) d.rest (x :: xs) z) (hplain : s.context = .plain)
    (hdirective : s.directive? (c :: cs) = some d) (hdelimiter : s.delimiter = x.delimiter.toList)
    (hgood : ∀ y ∈ x :: (xs ++ [z]), WellFormed y)
    (htext : s.kept.text ++ c :: cs =
      x.sql.toList ++ (x.delimiter.toList ++ '\n' :: written x.delimiter (xs ++ [z]))) : False := by
  have hwell := hgood x List.mem_cons_self
  obtain ⟨s₂, behind, hcloses, hsql, hd, hnext, hwritten, hall⟩ :=
    h.exists_late (.directive hplain hdirective) rfl hdelimiter hgood htext
  have hquiet := hcloses.quiet
  rw [hd, ← hwritten] at hquiet
  obtain ⟨hword, hline⟩ := hquiet.directive_lost hwell.nameable hwell.ends hplain hdelimiter hd
    htext hdirective hsql
  have hhead : behind.head?.all Text.isBlank = false := by
    have hnone := hcloses.directive
    unfold directive? at hnone
    cases hread : Directive.read? (s₂.delimiter ++ behind) with
    | none => exact Directive.read?_eq_none.1 hread _ behind rfl (by rw [hd, hword])
    | some d => simp [hread, hline] at hnone
  exact hnext.not_keyword hcloses.plain s₂.text_commit hd hall hword hwritten hhead

theorem reads (hgood : ∀ y ∈ x :: (xs ++ [z]), WellFormed y)
    (h : Leaves (start x.delimiter) (x.sql.toList ++ (x.delimiter.toList ++
      '\n' :: written x.delimiter (xs ++ [z]))) (x :: xs) z) :
    ∃ s, Reads x.sql x.delimiter ('\n' :: written x.delimiter (xs ++ [z])) s := by
  rcases reads_or_stops (hgood x List.mem_cons_self).nameable rfl
      (h.statements.trans (List.nil_append _)) with
    hreads | ⟨s, c, cs, s₁, unread, hstop, hopen, hsame, hdelimiter, htext, hscan⟩
  · exact hreads
  · exfalso
    have hagain : Leaves s₁ unread (x :: xs) z := by
      refine ⟨?_, ?_, ?_⟩ <;> rw [hscan]
      · rw [h.statements, hsame, start_statements]
      · exact h.trimmed
      · exact h.delimiter
    cases hstop with
    | comment hplain hline => exact hagain.not_comment hplain hline hdelimiter hgood htext
    | directive hplain hd => exact hagain.not_directive hplain hd hdelimiter hgood htext
    | close =>
      have hsize := congrArg Array.size hsame
      rw [statements_commit, Array.size_push] at hsize
      exact absurd hsize (by simp)

end Leaves
end Scanner
end SqlBatch.Script
