import SqlBatch.Proofs.Script.Quiet

/-! Where kept text stands in the script. From the first character of a word on, up to the next line
break, the text that is kept is the text that is read, so neither a comment marker nor a directive
can be put together from pieces. -/

namespace SqlBatch.Script

open Text

def IsSafe (c : Char) : Prop := isBlank c = true ∨ c.toLower ∈ keyword

theorem isSafe_of_mem_word {word : List Char} (h : word.map Char.toLower = keyword) {c : Char}
    (hc : c ∈ word) : IsSafe c :=
  Or.inr (h ▸ List.mem_map_of_mem hc)

theorem isSafe_of_allBlank {cs : List Char} (h : allBlank cs = true) : ∀ c ∈ cs, IsSafe c :=
  fun c hc => Or.inl (List.all_eq_true.1 h c hc)

theorem IsSafe.ne {c d : Char} (h : IsSafe c) (hd : isBlank d = false)
    (hletter : d.toLower ∉ keyword) : c ≠ d := by
  rintro rfl
  rcases h with hblank | hmem
  · rw [hd] at hblank
    exact Bool.noConfusion hblank
  · exact hletter hmem

theorem IsSafe.not_isMark {c : Char} (h : IsSafe c) : ¬Scanner.IsMark c := by
  rintro (rfl | rfl)
  · exact h.ne (by decide) (by decide) rfl
  · exact h.ne (by decide) (by decide) rfl

theorem IsSafe.not_isQuote {c : Char} (h : IsSafe c) : Scanner.isQuote c = false := by
  simp only [Scanner.isQuote, Bool.or_eq_false_iff, decide_eq_false_iff_not]
  exact ⟨⟨h.ne (by decide) (by decide), h.ne (by decide) (by decide)⟩,
    h.ne (by decide) (by decide)⟩

theorem Directive.exists_safe {cs : List Char} {d : Directive} (h : read? cs = some d)
    (htoken : d.token = []) : ∃ lead, cs = lead ++ d.rest ∧ ∀ c ∈ lead, IsSafe c := by
  obtain ⟨word, after, rfl, hword, -, htrim, hrest⟩ := read?_eq_some.1 h
  have hblank : allBlank (line after).1 = true := by rw [← trim_eq_nil, ← htrim, htoken]
  have hsafe : ∀ c ∈ word ++ (line after).1, IsSafe c := by
    intro c hc
    exact (List.mem_append.1 hc).elim (isSafe_of_mem_word hword) (isSafe_of_allBlank hblank c)
  have hafter : after = (line after).1 ++ (line after).2 := (line_append after).symm
  cases hline : (line after).2 with
  | nil =>
    rw [hline] at hrest hafter
    refine ⟨word ++ (line after).1, ?_, hsafe⟩
    rw [hrest, List.append_assoc]
    exact congrArg (word ++ ·) hafter
  | cons b cs =>
    rw [hline] at hrest hafter
    have hb : isBreak b = true := isBreak_head_line_rest (by rw [hline, List.head?_cons])
    obtain ⟨lead, htext, hlead⟩ := exists_append_dropTerminator cs hb
    refine ⟨word ++ (line after).1 ++ lead, ?_, ?_⟩
    · rw [hrest, List.append_assoc, List.append_assoc, ← htext, ← hafter]
    · intro c hc
      exact (List.mem_append.1 hc).elim (hsafe c) (isSafe_of_allBlank hlead c)

namespace Scanner
variable {s s₁ s' : Scanner} {c d : Char} {cs rest : List Char}

/-- Text is kept that is not blank, and not only blanks since the last line break. -/
def InLine (s : Scanner) : Prop := (s.lineStart || s.isBlank) = false

theorem InLine.directive? (h : InLine s) (cs : List Char) : s.directive? cs = none := by
  unfold Scanner.directive?
  rw [h]
  cases Directive.read? cs <;> rfl

theorem Keeps.inLine (h : Keeps s [c] s') (hc : Text.isBlank c = false) : InLine s' := by
  have hline : s'.lineStart = false := h.lineStart.trans (lineStartAfter_of_not_isBlank hc _)
  rw [InLine, hline, isBlank_eq, h.text]
  simp [hc]

theorem Keeps.inLine_of_isMark (h : Keeps s [c, d] s') (hd : IsMark d) : InLine s' := by
  have hline : s'.lineStart = false :=
    h.lineStart.trans (lineStartAfter_of_not_isBlank hd.not_isBlank _)
  rw [InLine, hline, isBlank_eq, h.text]
  simp [hd.not_isBlank]

theorem InLine.keep (h : InLine s) (hkeeps : Keeps s [c] s') (hc : isBreak c = false) :
    InLine s' := by
  obtain ⟨hbefore, hopen⟩ := Bool.or_eq_false_iff.1 h
  have hline : s'.lineStart = false := by
    rw [hkeeps.lineStart, hbefore]
    simp [lineStartBehind, lineStartAfter, hc]
  rw [InLine, hline, isBlank_eq, hkeeps.text, allBlank_append, ← isBlank_eq, hopen]
  rfl

theorem context_stepBare (s : Scanner) (c : Char) (cs : List Char) :
    (s.stepBare c cs).1.context = s.context := by
  unfold stepBare
  split
  · rfl
  · split <;> rfl

theorem plain_of_isSafe (hplain : s.context = .plain) (hc : IsSafe c)
    (hstep : s.step c cs = (s₁, cs)) : s₁.context = .plain := by
  have hbare : Bare c cs :=
    bare_of_step hplain (hc.ne (by decide) (by decide)) hc.not_isQuote (by rw [hstep])
  rw [step_of_bare hplain hbare] at hstep
  rw [← hplain, ← context_stepBare s c cs, hstep]

theorem redefine_ne {token final : List Char} (hbefore : s.delimiter ≠ final)
    (htoken : token ≠ final) : (s.redefine token).delimiter ≠ final := by
  unfold redefine
  cases token with
  | nil => exact hbefore
  | cons e es => exact htoken

namespace Quiet
variable {P : List Char → Prop}

theorem exists_added (h : Quiet P s₁ cs s' rest) {text more : List Char}
    (hkeeps : Keeps s text s₁) (hall : s'.kept.text = s.kept.text ++ more) :
    ∃ behind, s'.kept.text = s₁.kept.text ++ behind ∧ text ++ behind = more := by
  obtain ⟨behind, hbehind⟩ := h.exists_text
  refine ⟨behind, hbehind, ?_⟩
  rw [hbehind, hkeeps.text, List.append_assoc] at hall
  exact List.append_cancel_left hall

theorem exists_keep (h : Quiet P s cs s' rest) {front behind : List Char} (hc : ¬IsMark c)
    (htext : s'.kept.text = s.kept.text ++ (front ++ c :: behind)) :
    ∃ s₁ cs₁ s₂, Quiet P s cs s₁ (c :: cs₁) ∧ s₁.kept.text = s.kept.text ++ front ∧
      s₁.step c cs₁ = (s₂, cs₁) ∧ Keeps s₁ [c] s₂ ∧ Quiet P s₂ cs₁ s' rest := by
  induction h generalizing front with
  | refl s cs => exact absurd htext (by simp)
  | @keep s s₁ s' e cs rest hstep hkeeps hrun ih =>
    obtain ⟨more, hmore, hadded⟩ := hrun.exists_added hkeeps htext
    cases front with
    | nil =>
      obtain ⟨rfl, rfl⟩ := List.cons.inj hadded
      exact ⟨s, cs, s₁, .refl _ _, (List.append_nil _).symm, hstep, hkeeps, hrun⟩
    | cons f front =>
      obtain ⟨rfl, rfl⟩ := List.cons.inj hadded
      obtain ⟨s₂, cs₂, s₃, hbefore, hfront, hkeep⟩ := ih hmore
      refine ⟨s₂, cs₂, s₃, .keep hstep hkeeps hbefore, ?_, hkeep⟩
      rw [hfront, hkeeps.text, List.append_assoc, List.singleton_append]
  | @marker s s₁ s' d e cs rest hd he hstep hkeeps hrun ih =>
    obtain ⟨more, hmore, hadded⟩ := hrun.exists_added hkeeps htext
    rcases front with _ | ⟨f, _ | ⟨g, front⟩⟩ <;>
      simp only [List.cons_append, List.nil_append, List.cons.injEq] at hadded
    · exact absurd hd (hadded.1 ▸ hc)
    · exact absurd he (hadded.2.1 ▸ hc)
    · obtain ⟨rfl, rfl, rfl⟩ := hadded
      obtain ⟨s₂, cs₂, s₃, hbefore, hfront, hkeep⟩ := ih hmore
      refine ⟨s₂, cs₂, s₃, .marker hd he hstep hkeeps hbefore, ?_, hkeep⟩
      rw [hfront, hkeeps.text, List.append_assoc]
      rfl
  | comment hplain hline _ ih =>
    obtain ⟨s₂, cs₂, s₃, hbefore, hkeep⟩ := ih htext
    exact ⟨s₂, cs₂, s₃, .comment hplain hline hbefore, hkeep⟩
  | directive hplain hd htoken _ ih =>
    obtain ⟨s₂, cs₂, s₃, hbefore, hkeep⟩ := ih htext
    exact ⟨s₂, cs₂, s₃, .directive hplain hd htoken hbefore, hkeep⟩

theorem contiguous (h : Quiet P s cs s' rest) (hplace : InLine s) (word : List Char)
    {behind : List Char} (hword : ∀ c ∈ word, isBreak c = false)
    (htext : s'.kept.text = s.kept.text ++ (word ++ behind)) : word <+: cs := by
  induction h generalizing word with
  | refl s cs =>
    have hnil : word ++ behind = [] := by simpa using htext
    rw [(List.append_eq_nil_iff.1 hnil).1]
    exact List.nil_prefix
  | @keep s s₁ s' e cs rest hstep hkeeps hrun ih =>
    obtain ⟨more, hmore, hadded⟩ := hrun.exists_added hkeeps htext
    cases word with
    | nil => exact List.nil_prefix
    | cons f word =>
      obtain ⟨rfl, rfl⟩ := List.cons.inj hadded
      obtain ⟨hf, hword⟩ := List.forall_mem_cons.1 hword
      exact List.cons_prefix_cons.2 ⟨rfl, ih (hplace.keep hkeeps hf) word hword hmore⟩
  | @marker s s₁ s' d e cs rest hd he hstep hkeeps hrun ih =>
    obtain ⟨more, hmore, hadded⟩ := hrun.exists_added hkeeps htext
    rcases word with _ | ⟨f, _ | ⟨g, word⟩⟩ <;>
      simp only [List.cons_append, List.nil_append, List.cons.injEq] at hadded
    · exact List.nil_prefix
    · rw [hadded.1]
      exact ⟨e :: cs, rfl⟩
    · obtain ⟨rfl, rfl, rfl⟩ := hadded
      have hword' : ∀ c ∈ word, isBreak c = false :=
        fun c hc => hword c (List.mem_cons_of_mem _ (List.mem_cons_of_mem _ hc))
      have htail := ih (hkeeps.inLine_of_isMark he) word hword' hmore
      exact List.cons_prefix_cons.2 ⟨rfl, List.cons_prefix_cons.2 ⟨rfl, htail⟩⟩
  | comment hplain hline _ ih =>
    -- behind the comment stands a line break, which is not in the word
    have hfront := ih hplace word hword htext
    cases word with
    | nil => exact List.nil_prefix
    | cons f word =>
      obtain ⟨tail, htail⟩ := hfront
      have hbreak : isBreak f = true := isBreak_head_line_rest (by rw [← htail]; rfl)
      rw [hword f List.mem_cons_self] at hbreak
      exact Bool.noConfusion hbreak
  | directive _ hd => rw [hplace.directive?] at hd; exact absurd hd (by simp)

theorem until_break (h : Quiet P s cs s' rest) (hplace : InLine s) {word behind : List Char}
    {b : Char} (hb : isBreak b = true) (hword : ∀ c ∈ word, isBreak c = false)
    (htext : s'.kept.text = s.kept.text ++ (word ++ b :: behind)) :
    ∃ s₁ e cs₁, cs = word ++ e :: cs₁ ∧ Quiet P s cs s₁ (e :: cs₁) ∧
      s₁.kept.text = s.kept.text ++ word ∧ Quiet P s₁ (e :: cs₁) s' rest ∧
      (e = b ∨ startsLineComment e cs₁ = true) := by
  induction h generalizing word with
  | refl s cs => exact absurd htext (by simp)
  | @keep s s₁ s' e cs rest hstep hkeeps hrun ih =>
    obtain ⟨more, hmore, hadded⟩ := hrun.exists_added hkeeps htext
    cases word with
    | nil =>
      exact ⟨s, e, cs, rfl, .refl _ _, (List.append_nil _).symm, .keep hstep hkeeps hrun,
        Or.inl (List.cons.inj hadded).1⟩
    | cons f word =>
      obtain ⟨rfl, rfl⟩ := List.cons.inj hadded
      obtain ⟨hf, hword⟩ := List.forall_mem_cons.1 hword
      obtain ⟨s₂, g, cs₂, rfl, hbefore, hkept, hafter⟩ := ih (hplace.keep hkeeps hf) hword hmore
      refine ⟨s₂, g, cs₂, rfl, .keep hstep hkeeps hbefore, ?_, hafter⟩
      rw [hkept, hkeeps.text, List.append_assoc, List.singleton_append]
  | @marker s s₁ s' d e cs rest hd he hstep hkeeps hrun ih =>
    obtain ⟨more, hmore, hadded⟩ := hrun.exists_added hkeeps htext
    have hmark : ¬IsMark b :=
      fun hmark => ne_of_isBlank (isBlank_of_isBreak hb) hmark.not_isBlank rfl
    rcases word with _ | ⟨f, _ | ⟨g, word⟩⟩ <;>
      simp only [List.cons_append, List.nil_append, List.cons.injEq] at hadded
    · exact absurd hd (hadded.1 ▸ hmark)
    · exact absurd he (hadded.2.1 ▸ hmark)
    · obtain ⟨rfl, rfl, rfl⟩ := hadded
      have hword' : ∀ c ∈ word, isBreak c = false :=
        fun c hc => hword c (List.mem_cons_of_mem _ (List.mem_cons_of_mem _ hc))
      obtain ⟨s₂, g, cs₂, rfl, hbefore, hkept, hafter⟩ :=
        ih (hkeeps.inLine_of_isMark he) hword' hmore
      refine ⟨s₂, g, cs₂, rfl, .marker hd he hstep hkeeps hbefore, ?_, hafter⟩
      rw [hkept, hkeeps.text, List.append_assoc]
      rfl
  | @comment s s' c cs rest hplain hline hrun ih =>
    cases word with
    | nil =>
      exact ⟨s, c, cs, rfl, .refl _ _, (List.append_nil _).symm, .comment hplain hline hrun,
        Or.inr hline⟩
    | cons f word =>
      obtain ⟨-, g, cs₂, htail, -⟩ := ih hplace hword htext
      have hbreak : isBreak f = true := isBreak_head_line_rest (by rw [htail]; rfl)
      rw [hword f List.mem_cons_self] at hbreak
      exact Bool.noConfusion hbreak
  | directive _ hd => rw [hplace.directive?] at hd; exact absurd hd (by simp)

theorem plain (h : Quiet P s cs s' rest) (hplain : s.context = .plain) {more : List Char}
    (hmore : ∀ c ∈ more, IsSafe c) (htext : s'.kept.text = s.kept.text ++ more) :
    s'.context = .plain := by
  induction h generalizing more with
  | refl => exact hplain
  | @keep s s₁ s' c cs rest hstep hkeeps hrun ih =>
    obtain ⟨behind, hbehind, rfl⟩ := hrun.exists_added hkeeps htext
    have hc := hmore c List.mem_cons_self
    exact ih (plain_of_isSafe hplain hc hstep) (fun e he => hmore e (List.mem_cons_of_mem _ he))
      hbehind
  | @marker s s₁ s' c d cs rest hc _ _ hkeeps hrun _ =>
    obtain ⟨behind, hbehind, rfl⟩ := hrun.exists_added hkeeps htext
    exact absurd hc (hmore c List.mem_cons_self).not_isMark
  | comment hplain _ _ ih => exact ih hplain hmore htext
  | directive hplain _ _ _ ih => exact ih hplain hmore htext

theorem lineStart (h : Quiet P s cs s' rest) (hline : s.lineStart = true)
    (htext : s'.kept.text = s.kept.text) : s'.lineStart = true := by
  induction h with
  | refl => exact hline
  | @keep s s₁ s' c cs rest hstep hkeeps hrun _ =>
    rw [← List.append_nil s.kept.text] at htext
    obtain ⟨behind, -, hadded⟩ := hrun.exists_added hkeeps htext
    exact absurd hadded (List.cons_ne_nil _ _)
  | @marker s s₁ s' c d cs rest _ _ _ hkeeps hrun _ =>
    rw [← List.append_nil s.kept.text] at htext
    obtain ⟨behind, -, hadded⟩ := hrun.exists_added hkeeps htext
    exact absurd hadded (List.cons_ne_nil _ _)
  | comment _ _ _ ih => exact ih hline htext
  | directive _ _ _ _ ih => exact ih rfl htext

/-- A comment marker is never kept behind safe text: its first character stands in the script in
front of the others, and there the comment is passed over. -/
theorem not_startsLineComment (h : Quiet P s cs s' rest) (hplain : s.context = .plain)
    {front tail : List Char} {c : Char} (hfront : ∀ e ∈ front, IsSafe e)
    (htext : s'.kept.text = s.kept.text ++ (front ++ c :: tail)) :
    startsLineComment c tail = false := by
  cases hline : startsLineComment c tail with
  | false => rfl
  | true =>
    exfalso
    obtain ⟨e, behind, he, hmarker⟩ := startsLineComment_eq_true.1 hline
    have hmark : ¬IsMark c := by
      rintro (rfl | rfl)
      · rcases hmarker with ⟨hc, -⟩ | ⟨hc, -⟩ <;> exact absurd hc (by decide)
      · rcases hmarker with ⟨hc, -⟩ | ⟨hc, -⟩ <;> exact absurd hc (by decide)
    have hc := not_isBlank_of_startsLineComment hline
    obtain ⟨s₁, cs₁, s₂, hbefore, hkept, hstep, hkeeps, hafter⟩ := h.exists_keep hmark htext
    have htail : s'.kept.text = s₂.kept.text ++ tail := by
      rw [htext, hkeeps.text, hkept]
      simp
    have hplace := hkeeps.inLine hc
    have hstands : startsLineComment c cs₁ = true := by
      have hbreak := not_isBreak_of_isSpaceOrTab he
      rcases hmarker with ⟨rfl, rfl⟩ | ⟨rfl, rfl⟩
      · obtain ⟨more, rfl⟩ := hafter.contiguous hplace [e] (by simpa using hbreak) htail
        exact he
      · obtain ⟨more, rfl⟩ :=
          hafter.contiguous hplace ['-', e] (by simpa using ⟨by decide, hbreak⟩) htail
        exact he
    rw [step_of_startsLineComment (hbefore.plain hplain hfront hkept) hstands] at hstep
    have hlength := length_line_of_startsLineComment hstands
    rw [congrArg Prod.snd hstep] at hlength
    exact Nat.lt_irrefl _ hlength

theorem exists_comment {c : Char} (h : Quiet (· = []) s cs s' (c :: rest))
    (hplain : s.context = .plain) {more : List Char} (hmore : ∀ e ∈ more, IsSafe e)
    (htext : s'.kept.text = s.kept.text ++ more) (hline : startsLineComment c rest = true) :
    ∃ front e cs₁ s₁, cs = front ++ e :: cs₁ ∧ (∀ x ∈ front, IsSafe x) ∧
      startsLineComment e cs₁ = true ∧ s₁.context = .plain ∧
      Quiet (· = []) s cs s₁ (e :: cs₁) ∧ Quiet (· = []) s₁ (e :: cs₁) s' (c :: rest) := by
  generalize hend : c :: rest = rest' at h
  induction h generalizing more with
  | refl s cs =>
    subst hend
    exact ⟨[], c, rest, s, rfl, by simp, hline, hplain, .refl _ _, .refl _ _⟩
  | @keep s s₁ s' f cs rest hstep hkeeps hrun ih =>
    subst hend
    obtain ⟨behind, hbehind, rfl⟩ := hrun.exists_added hkeeps htext
    have hf := hmore f List.mem_cons_self
    obtain ⟨front, e, cs₁, s₂, rfl, hfront, hcomment, hend, hbefore, hafter⟩ :=
      ih (plain_of_isSafe hplain hf hstep) (fun e he => hmore e (List.mem_cons_of_mem _ he))
        hbehind rfl
    exact ⟨f :: front, e, cs₁, s₂, rfl, List.forall_mem_cons.2 ⟨hf, hfront⟩, hcomment,
      hend, .keep hstep hkeeps hbefore, hafter⟩
  | @marker s s₁ s' f g cs rest hf _ _ hkeeps hrun _ =>
    obtain ⟨behind, hbehind, rfl⟩ := hrun.exists_added hkeeps htext
    exact absurd hf (hmore f List.mem_cons_self).not_isMark
  | @comment s s' f cs rest hplain' hcomment hrun _ =>
    subst hend
    exact ⟨[], f, cs, s, rfl, by simp, hcomment, hplain, .refl _ _, .comment hplain' hcomment hrun⟩
  | @directive s s' f cs rest d hplain' hd htoken hrun ih =>
    subst hend
    obtain ⟨lead, hlead, hsafe⟩ := Directive.exists_safe (read?_of_directive? hd) htoken
    obtain ⟨front, e, cs₁, s₂, hrest, hfront, hcomment, hend, hbefore, hafter⟩ :=
      ih hplain' hmore htext rfl
    refine ⟨lead ++ front, e, cs₁, s₂, ?_, ?_, hcomment, hend,
      .directive hplain' hd htoken hbefore, hafter⟩
    · rw [hlead, hrest, List.append_assoc]
    · intro x hx
      exact (List.mem_append.1 hx).elim (hsafe x) (hfront x)

theorem exists_naming {final : List Char} (h : Quiet P s cs s' rest)
    (hbefore : s.delimiter ≠ final) (hafter : s'.delimiter = final) :
    ∃ s₁ c cs₁ d, Quiet (· ≠ final) s cs s₁ (c :: cs₁) ∧ s₁.context = .plain ∧
      Directive.read? (c :: cs₁) = some d ∧ d.token = final ∧
      Quiet P s₁ (c :: cs₁) s' rest := by
  induction h with
  | refl => exact absurd hafter hbefore
  | keep hstep hkeeps hrun ih =>
    obtain ⟨s₂, c, cs₂, d, hquiet, hnaming⟩ := ih (by rwa [hkeeps.delimiter]) hafter
    exact ⟨s₂, c, cs₂, d, .keep hstep hkeeps hquiet, hnaming⟩
  | marker hc hd hstep hkeeps hrun ih =>
    obtain ⟨s₂, c, cs₂, d, hquiet, hnaming⟩ := ih (by rwa [hkeeps.delimiter]) hafter
    exact ⟨s₂, c, cs₂, d, .marker hc hd hstep hkeeps hquiet, hnaming⟩
  | comment hplain hline hrun ih =>
    obtain ⟨s₂, c, cs₂, d, hquiet, hnaming⟩ := ih hbefore hafter
    exact ⟨s₂, c, cs₂, d, .comment hplain hline hquiet, hnaming⟩
  | @directive s s' c cs rest d hplain hd htoken hrun ih =>
    by_cases hnames : d.token = final
    · exact ⟨s, c, cs, d, .refl _ _, hplain, read?_of_directive? hd, hnames,
        .directive hplain hd htoken hrun⟩
    · obtain ⟨s₂, e, cs₂, d', hquiet, hnaming⟩ := ih (redefine_ne hbefore hnames) hafter
      exact ⟨s₂, e, cs₂, d', .directive hplain hd hnames hquiet, hnaming⟩

theorem delimiter_ne {final : List Char} (h : Quiet (· ≠ final) s cs s' rest)
    (hbefore : s.delimiter ≠ final) : s'.delimiter ≠ final := by
  induction h with
  | refl => exact hbefore
  | keep _ hkeeps _ ih => exact ih (by rwa [hkeeps.delimiter])
  | marker _ _ _ hkeeps _ ih => exact ih (by rwa [hkeeps.delimiter])
  | comment _ _ _ ih => exact ih hbefore
  | directive _ _ hother _ ih => exact ih (redefine_ne hbefore hother)

end Quiet
end Scanner
end SqlBatch.Script
