import SqlBatch.Proofs.Script.Rendered

/-! Scripts that never mention the keyword, read, written and read again. Whatever the scanner has
kept of a statement, it could have read from the start of a script of its own: line comments are
gone from it up to a line break, which ends every look ahead, and blank text only at its ends. -/

namespace SqlBatch.Script

open Text

def Mentions (cs : List Char) : Prop := keyword <:+: cs.map Char.toLower

instance (cs : List Char) : Decidable (Mentions cs) :=
  inferInstanceAs (Decidable (keyword <:+: cs.map Char.toLower))

theorem Mentions.mono {cs cs' : List Char} (h : Mentions cs) (hinside : cs <:+: cs') :
    Mentions cs' :=
  List.IsInfix.trans h (hinside.map Char.toLower)

theorem ReadsLike.read?_eq_none {d cs u : List Char} (h : ReadsLike d cs u) (hcs : ¬Mentions cs) :
    Directive.read? u = none := by
  rw [Directive.read?_eq_none]
  intro word after hu hword
  have hfront : word <+: cs := by
    refine h word ⟨after, hu.symm⟩ fun c hc hends => ?_
    have hletter : c.toLower ∈ keyword := hword ▸ List.mem_map_of_mem hc
    rcases hends.1 with hbreak | rfl
    · rw [not_isBreak_of_mem_word hword hc] at hbreak
      exact Bool.noConfusion hbreak
    · exact absurd hletter (by decide)
  have hmention : Mentions cs := by
    rw [Mentions, ← hword]
    exact hfront.isInfix.map Char.toLower
  exact absurd hmention hcs

def Context.IsProper : Context → Prop
  | .literal quote | .escape (some quote) => Scanner.isQuote quote = true
  | _ => True

namespace Scanner
variable {s s' : Scanner} {c : Char} {cs rest : List Char}

theorem isProper_stepPlain (h : s.context = .plain) : (s.stepPlain c cs).1.context.IsProper := by
  have hplain : s.context.IsProper := by rw [h]; trivial
  unfold stepPlain
  split
  · trivial
  · split
    · trivial
    · split
      · exact hplain
      · split
        · rename_i hquote
          exact hquote
        · unfold stepBare
          split
          · exact hplain
          · split <;> exact hplain

theorem isProper_step (h : s.context.IsProper) : (s.step c cs).1.context.IsProper := by
  unfold step
  split
  · rename_i hplain
    exact isProper_stepPlain hplain
  · rename_i inside hinside
    rw [hinside] at h
    cases inside with
    | none => trivial
    | some quote => exact h
  · rename_i quote hinside
    rw [hinside] at h
    unfold stepLiteral
    by_cases hescape : c = '\\'
    · simp only [if_pos hescape]
      exact h
    · simp only [if_neg hescape]
      split
      · trivial
      · exact h
  · rename_i enclosing hinside
    unfold stepComment
    split
    · trivial
    · split
      · cases enclosing <;> trivial
      · exact h

theorem step_of_isBlank (hc : Text.isBlank c = true) (hproper : s.context.IsProper)
    (hescape : ∀ inside, s.context ≠ .escape inside) (hafter : s.afterDelimiter? c cs = none) :
    s.step c cs = (s.keep c, cs) := by
  cases hcontext : s.context with
  | plain =>
    rw [step_of_bare hcontext (bare_of_isBlank hc cs), stepBare, directive?_of_isBlank hc, hafter]
  | escape inside => exact absurd hcontext (hescape inside)
  | literal quote =>
    rw [hcontext] at hproper
    have hescape : c ≠ '\\' := ne_of_isBlank hc (by decide)
    have hquote : c ≠ quote := ne_of_isBlank hc (not_isBlank_of_isQuote hproper)
    simp only [step, hcontext, stepLiteral, if_neg hescape, if_neg hquote]
    rw [← hcontext]
    rfl
  | comment enclosing =>
    have hopen : ¬(c = '/' ∧ cs.head? = some '*') := fun h => ne_of_isBlank hc (by decide) h.1
    have hclose : ¬(c = '*' ∧ cs.head? = some '/') := fun h => ne_of_isBlank hc (by decide) h.1
    simp only [step, hcontext, stepComment, if_neg hopen, if_neg hclose]

/-- What is kept of the statement in progress could be read from the start of a script, in front of
any text that is read like the unread one; and trimmed, in front of a semicolon. -/
structure Echoed (s : Scanner) (cs : List Char) : Prop where
  proper : s.context.IsProper
  delimiter : s.delimiter = Statement.defaultDelimiter.toList
  mentions : ¬Mentions cs
  again : ∀ u, ReadsLike s.delimiter cs u → ∃ s₀,
    Runs (start Statement.defaultDelimiter) (trimStart s.kept.text ++ u) s₀ u ∧
      Continues s.statements.toList s₀ s
  trimmed : ∀ rest, ∃ s₀,
    Runs (start Statement.defaultDelimiter) (s.kept.trimmed ++ ';' :: rest) s₀ (';' :: rest) ∧
      s₀.context = s.context ∧ s₀.delimiter = s.delimiter ∧ s₀.statements = #[] ∧
      s₀.kept.trimmed = s.kept.trimmed

namespace Echoed

theorem continues_start (h : Echoed s cs) (hblank : allBlank s.kept.text = true) :
    Continues s.statements.toList (start Statement.defaultDelimiter) s := by
  obtain ⟨s₀, hrun, hcontinues⟩ := h.again cs (.of_front List.prefix_rfl)
  rw [trimStart_eq_nil.2 hblank, List.nil_append] at hrun
  rwa [hrun.eq_of_refl] at hcontinues

/-- A step that keeps text can be made behind what is kept already. -/
theorem again_of_keeps {s₁ : Scanner} (more : List Char) (h : Echoed s (c :: (more ++ rest)))
    (hkeeps : Keeps s (c :: more) s₁)
    (hstep : ∀ u, ReadsLike s.delimiter rest u → s.step c (more ++ u) = (s₁, u))
    (hblank : allBlank s.kept.text = true → Text.isBlank c = false) (u : List Char)
    (hu : ReadsLike s₁.delimiter rest u) : ∃ s₀,
      Runs (start Statement.defaultDelimiter) (trimStart s₁.kept.text ++ u) s₀ u ∧
        Continues s₁.statements.toList s₀ s₁ := by
  rw [hkeeps.delimiter] at hu
  obtain ⟨s₀, hrun, hcontinues⟩ := h.again (c :: (more ++ u)) ((hu.append_left more).cons c)
  obtain ⟨hrest, hnext⟩ := hcontinues.step c (more ++ u)
  rw [hstep u hu] at hrest hnext
  rw [hkeeps.text, hkeeps.statements, trimStart_append_cons more hblank, List.append_assoc,
    List.cons_append]
  refine ⟨(s₀.step c (more ++ u)).1, hrun.trans (.step ?_), hnext⟩
  rw [← hrest]
  exact .refl _ _

theorem trimmed_of_again {s₁ : Scanner}
    (again : ∀ u, ReadsLike s₁.delimiter cs u → ∃ s₀,
      Runs (start Statement.defaultDelimiter) (trimStart s₁.kept.text ++ u) s₀ u ∧
        Continues s₁.statements.toList s₀ s₁)
    (hdelimiter : s₁.delimiter = Statement.defaultDelimiter.toList)
    (htrimmed : s₁.kept.trimmed = trimStart s₁.kept.text) (rest : List Char) : ∃ s₀,
      Runs (start Statement.defaultDelimiter) (s₁.kept.trimmed ++ ';' :: rest) s₀ (';' :: rest) ∧
        s₀.context = s₁.context ∧ s₀.delimiter = s₁.delimiter ∧ s₀.statements = #[] ∧
        s₀.kept.trimmed = s₁.kept.trimmed := by
  have hends : EndsLook s₁.delimiter ';' := ⟨Or.inr rfl, by rw [hdelimiter]; decide⟩
  obtain ⟨s₀, hrun, hcontinues⟩ := again (';' :: rest) (.of_endsLook hends rest)
  refine ⟨s₀, by rw [htrimmed]; exact hrun, hcontinues.context.symm, hcontinues.delimiter.symm, ?_,
    hcontinues.trimmed.symm⟩
  have hlength := congrArg List.length hcontinues.statements
  rw [List.length_append, List.length_map, Nat.left_eq_add, Array.length_toList] at hlength
  exact Array.eq_empty_of_size_eq_zero hlength

theorem keep_blank (h : Echoed s (c :: cs)) (hc : Text.isBlank c = true)
    (hkeeps : Keeps s [c] (s.keep c))
    (hstep : ∀ u, ReadsLike s.delimiter cs u → s.step c u = (s.keep c, u)) :
    Echoed (s.keep c) cs := by
  have htrimmed : (s.keep c).kept.trimmed = s.kept.trimmed := by
    rw [kept_keep, Kept.trimmed_push_of_allBlank _ (by simp [hc])]
  refine ⟨h.proper, h.delimiter, fun hmention => h.mentions
    (hmention.mono (List.suffix_cons c cs).isInfix), fun u hu => ?_, fun rest => ?_⟩
  · cases hblank : allBlank s.kept.text with
    | true =>
      have hnone : trimStart (s.keep c).kept.text = [] := by
        rw [hkeeps.text, trimStart_eq_nil, allBlank_append, hblank, allBlank_cons, hc]
        rfl
      refine ⟨start Statement.defaultDelimiter, ?_, (h.continues_start hblank).keep_blank hc⟩
      rw [hnone]
      exact .refl _ _
    | false =>
      exact h.again_of_keeps [] hkeeps hstep (by simp [hblank]) u hu
  · rw [htrimmed]
    exact h.trimmed rest

theorem keep {s₁ : Scanner} (h : Echoed s (c :: cs)) (hkeeps : Keeps s [c] s₁)
    (hstep : s.step c cs = (s₁, cs)) : Echoed s₁ cs := by
  have hlike : ∀ u, ReadsLike s.delimiter cs u → s.step c u = (s₁, u) := by
    intro u hu
    have hdirective : s.directive? (c :: u) = none := by
      rw [directive?, (hu.cons c).read?_eq_none h.mentions]
    rw [step_eq_of_readsLike hu (fun _ => hdirective) (by rw [hstep]), hstep]
  by_cases hquiet : Text.isBlank c = true ∧ ∀ inside, s.context ≠ .escape inside
  · obtain ⟨hc, hescape⟩ := hquiet
    have hafter : s.afterDelimiter? c cs = none := by
      rw [afterDelimiter?, h.delimiter]
      exact if_neg (ne_of_isBlank hc (by decide)).symm
    obtain rfl : s.keep c = s₁ := by
      rw [step_of_isBlank hc h.proper hescape hafter, Prod.mk.injEq] at hstep
      exact hstep.1
    exact h.keep_blank hc hkeeps hlike
  · have hblank : allBlank s.kept.text = true → Text.isBlank c = false := by
      intro hall
      have hplain := (h.continues_start hall).context
      cases hc : Text.isBlank c with
      | false => rfl
      | true =>
        refine absurd ⟨hc, fun inside hinside => ?_⟩ hquiet
        rw [hinside] at hplain
        exact Context.noConfusion hplain
    have hagain := h.again_of_keeps [] hkeeps hlike hblank
    have hdelimiter := hkeeps.delimiter.trans h.delimiter
    have hproper : s₁.context.IsProper := by
      have hnext : (s.step c cs).1.context.IsProper := isProper_step h.proper
      rwa [hstep] at hnext
    refine ⟨hproper, hdelimiter, fun hmention => h.mentions
      (hmention.mono (List.suffix_cons c cs).isInfix), hagain,
      trimmed_of_again hagain hdelimiter ?_⟩
    cases hc : Text.isBlank c with
    | false =>
      rcases hkeeps.kept with hkept | hkept
      · rw [hkept, Kept.trimmed_push_singleton _ hc]
      · rw [hkept, Kept.trimmed_pushGuarded]
    | true =>
      -- an escaped blank is guarded
      obtain ⟨inside, hinside⟩ : ∃ inside, s.context = .escape inside := by
        by_contra hnone
        exact hquiet ⟨hc, fun inside hinside => hnone ⟨inside, hinside⟩⟩
      have hkept : s₁.kept = s.kept.pushGuarded [c] := by
        simp only [step, hinside, Prod.mk.injEq] at hstep
        rw [← hstep.1]
        exact kept_keepEscaped s c
      rw [hkept, Kept.trimmed_pushGuarded]

theorem marker {s₁ : Scanner} {d : Char} (h : Echoed s (c :: d :: rest))
    (hc : Text.isBlank c = false) (hd : Text.isBlank d = false) (hkeeps : Keeps s [c, d] s₁)
    (hstep : ∀ u, s.step c (d :: u) = (s₁, u)) : Echoed s₁ rest := by
  have hagain := h.again_of_keeps [d] hkeeps (fun u _ => hstep u) fun _ => hc
  have hdelimiter := hkeeps.delimiter.trans h.delimiter
  have hproper : s₁.context.IsProper := by
    have hnext : (s.step c (d :: rest)).1.context.IsProper := isProper_step h.proper
    rwa [hstep] at hnext
  refine ⟨hproper, hdelimiter, fun hmention => h.mentions (hmention.mono ?_), hagain,
    trimmed_of_again hagain hdelimiter ?_⟩
  · exact ((List.suffix_cons d rest).trans (List.suffix_cons c _)).isInfix
  · rcases hkeeps.kept with hkept | hkept
    · have hpush : s.kept.push [c, d] = (s.kept.push [c]).push [d] := by
        rw [Kept.push_push, List.singleton_append]
      rw [hkept, hpush, Kept.trimmed_push_singleton _ hd]
    · rw [hkept, Kept.trimmed_pushGuarded]

theorem comment (h : Echoed s (c :: cs)) : Echoed s (line cs).2 := by
  have hsuffix : (line cs).2 <:+ c :: cs :=
    (show (line cs).2 <:+ cs from ⟨(line cs).1, line_append cs⟩).trans (List.suffix_cons c cs)
  have hlike : ReadsLike s.delimiter (c :: cs) (line cs).2 := by
    cases hrest : (line cs).2 with
    | nil => exact .of_front List.nil_prefix
    | cons b rest =>
      have hb : isBreak b = true := isBreak_head_line_rest (by rw [hrest, List.head?_cons])
      exact .of_endsLook ⟨Or.inl hb, by rw [h.delimiter]; exact List.not_mem_nil⟩ rest
  exact ⟨h.proper, h.delimiter, fun hmention => h.mentions (hmention.mono hsuffix.isInfix),
    fun u hu => h.again u (hlike.trans hu), h.trimmed⟩

theorem of_closed (hplain : s.context = .plain) (hkept : s.kept = {})
    (hdelimiter : s.delimiter = Statement.defaultDelimiter.toList) (hmentions : ¬Mentions cs) :
    Echoed s cs := by
  refine ⟨by rw [hplain]; trivial, hdelimiter, hmentions, fun u _ => ?_, fun rest => ?_⟩
  · refine ⟨start Statement.defaultDelimiter, by rw [hkept]; exact .refl _ _, hdelimiter, hplain,
      ?_, ⟨[], rfl, hkept⟩, Or.inr rfl⟩
    rw [start_statements, List.map_nil, List.append_nil]
  · refine ⟨start Statement.defaultDelimiter, by rw [hkept]; exact .refl _ _, hplain.symm,
      hdelimiter.symm, rfl, by rw [hkept]; rfl⟩

theorem step (h : Echoed s (c :: cs)) : Echoed (s.step c cs).1 (s.step c cs).2 := by
  have hexit := exit_step s c cs
  generalize hnext : s.step c cs = next at hexit
  obtain ⟨s₁, rest⟩ := next
  cases hexit with
  | keep hkeeps => exact h.keep hkeeps hnext
  | marker hcs hc hd hstep hkeeps =>
    subst hcs
    exact h.marker hc.not_isBlank hd.not_isBlank hkeeps hstep
  | stop hstop =>
    cases hstop with
    | comment => exact h.comment
    | directive hplain hd =>
      have hnone : s.directive? (c :: cs) = none := by
        rw [directive?, (ReadsLike.of_front List.prefix_rfl).read?_eq_none h.mentions]
        exact s.delimiter
      simp [hnone] at hd
    | close hplain hbare hdirective hafter =>
      obtain ⟨-, hfront⟩ := afterDelimiter?_eq_some.1 hafter
      refine of_closed hplain (kept_commit s) h.delimiter fun hmention => h.mentions ?_
      exact hmention.mono ⟨s.delimiter, [], by rw [hfront, List.append_nil]⟩

end Echoed

end Scanner
end SqlBatch.Script
