import SqlBatch.Proofs.Script.Glued
import SqlBatch.Proofs.Script.WellFormed

/-! What cannot be lost. If all of a statement's text is kept when the line of its delimiter has
been read, then no comment has been passed over in it, and no directive: the text would have to be
kept from the script a second time, where it is passed over as well. -/

namespace SqlBatch.Script

open Text

theorem EndsGuarded.not_safe {sql front word tail : List Char} (h : EndsGuarded sql)
    (hsql : sql = front ++ (word ++ tail)) (hword : ∀ c ∈ word, IsSafe c) (hne : word ≠ [])
    (hblank : allBlank tail = true) (htail : tail ≠ []) : False := by
  obtain ⟨tail', c, rfl⟩ := List.eq_nil_or_concat' tail |>.resolve_left htail
  obtain ⟨word', e, hlast⟩ := List.eq_nil_or_concat' (word ++ tail') |>.resolve_left (by simp [hne])
  rw [allBlank_append, Bool.and_eq_true] at hblank
  have hc : isBlank c = true := by simpa using hblank.2
  obtain ⟨front', hfront⟩ := h (front ++ word ++ tail') c (by rw [hsql]; simp) hc
  rw [List.append_assoc, hlast, ← List.append_assoc] at hfront
  have he : e = '\\' := by simpa using (List.append_inj' hfront rfl).2
  have hsafe : IsSafe e := by
    have hmem : e ∈ word ++ tail' := by rw [hlast]; simp
    exact (List.mem_append.1 hmem).elim (hword e) (isSafe_of_allBlank hblank.1 e)
  exact hsafe.ne (by decide) (by decide) he

namespace Scanner
variable {P : List Char → Prop} {s s' : Scanner} {c : Char} {cs rest : List Char}

theorem Quiet.of_comment (h : Quiet P s (c :: cs) s' rest) (hplain : s.context = .plain)
    (hline : startsLineComment c cs = true) (hlength : rest.length ≤ cs.length) :
    Quiet P s (line cs).2 s' rest := by
  have hstep := step_of_startsLineComment hplain hline
  cases h with
  | refl =>
    rw [List.length_cons] at hlength
    omega
  | keep hstep' _ h =>
    rw [hstep] at hstep'
    obtain ⟨rfl, hcs⟩ := Prod.mk.inj hstep'
    rwa [hcs]
  | marker _ _ hstep' _ h =>
    rw [hstep' _] at hstep
    obtain ⟨rfl, hcs⟩ := Prod.mk.inj hstep
    rwa [← hcs]
  | comment _ _ h => exact h
  | directive hplain' hd _ h =>
    rw [step_of_directive? hplain' hd] at hstep
    obtain ⟨hs, hcs⟩ := Prod.mk.inj hstep
    rwa [← hcs, ← hs]

theorem Quiet.length_le_of_ne (h : Quiet P s (c :: cs) s' rest) (hne : s' ≠ s) :
    rest.length ≤ cs.length := by
  by_contra hlong
  have hsame : rest = c :: cs := by
    refine h.suffix.eq_of_length (Nat.le_antisymm h.suffix.length_le ?_)
    rw [List.length_cons]
    omega
  subst hsame
  exact hne h.runs.eq_of_refl

theorem Quiet.lineFeed (h : Quiet P s ('\n' :: rest) s' rest) :
    s'.kept.text = s.kept.text ++ ['\n'] := by
  generalize hcs : '\n' :: rest = cs at h
  cases h with
  | refl => exact absurd (congrArg List.length hcs) (by simp)
  | keep _ hkeeps h =>
    obtain ⟨rfl, rfl⟩ := List.cons.inj hcs
    rw [h.runs.eq_of_refl, hkeeps.text]
  | marker hc =>
    obtain ⟨rfl, -⟩ := List.cons.inj hcs
    exact absurd rfl (ne_of_isBlank isBlank_lineFeed hc.not_isBlank)
  | comment _ hline =>
    obtain ⟨rfl, -⟩ := List.cons.inj hcs
    rw [(bare_of_isBlank isBlank_lineFeed _).line] at hline
    exact Bool.noConfusion hline
  | directive _ hd =>
    obtain ⟨rfl, -⟩ := List.cons.inj hcs
    rw [directive?_of_isBlank isBlank_lineFeed] at hd
    exact absurd hd (by simp)

section
variable {sql delimiter : List Char}

theorem Quiet.weight_of_lineFeed (h : Quiet P s ('\n' :: rest) s' rest)
    (htrimmed : s'.kept.trimmed = sql) : weight s.kept.text = weight sql := by
  rw [← weight_text_of_trimmed htrimmed, h.lineFeed, weight_append,
    weight_cons_of_isBlank isBlank_lineFeed]
  rfl

theorem exists_gap {front tail : List Char} (hname : Nameable delimiter)
    (htext : sql ++ delimiter = front ++ tail) (hweight : weight tail = weight delimiter) :
    ∃ gap, allBlank gap = true ∧ sql = front ++ gap ∧ tail = gap ++ delimiter := by
  rcases List.append_eq_append_iff.1 htext with ⟨more, hmore, hdelimiter⟩ | ⟨gap, hgap, htail⟩
  · -- the rest of the delimiter would be blank at its start
    have hnil : more = [] := by
      have hblank : weight more = 0 := by
        rw [hdelimiter, weight_append] at hweight
        omega
      apply eq_nil_of_allBlank tail (weight_eq_zero.1 hblank)
      intro e he
      rw [← hdelimiter] at he
      exact hname.not_isBlank_head he
    rw [hnil, List.append_nil] at hmore
    rw [hnil, List.nil_append] at hdelimiter
    exact ⟨[], rfl, by rw [hmore, List.append_nil], hdelimiter.symm⟩
  · have hblank : weight gap = 0 := by
      rw [htail, weight_append] at hweight
      omega
    exact ⟨gap, weight_eq_zero.1 hblank, hgap, htail⟩

theorem eq_of_weight_eq {front behind : List Char} (hname : Nameable delimiter)
    (hc : Text.isBlank c = false) (htext : sql ++ delimiter = front ++ c :: behind)
    (hweight : weight front = weight sql) : delimiter = c :: behind := by
  have hall := congrArg weight htext
  rw [weight_append, weight_append] at hall
  obtain ⟨gap, hgap, -, htail⟩ := exists_gap hname htext (by omega)
  have hnil : gap = [] := by
    apply eq_nil_of_allBlank delimiter hgap
    intro e he
    rw [← htail] at he
    rwa [← Option.some.inj he]
  rw [htail, hnil, List.nil_append]

theorem Quiet.not_marker {front marker tail : List Char} (h : Quiet P s cs s' rest)
    (hplain : s.context = .plain) (hfront : ∀ e ∈ front, IsSafe e)
    (hkept : s'.kept.text = s.kept.text ++ (front ++ c :: (marker ++ tail))) :
    startsLineComment c marker = false := by
  by_contra hmarker
  have hagain := startsLineComment_append (eq_true_of_ne_false hmarker) tail
  rw [h.not_startsLineComment hplain hfront hkept] at hagain
  exact Bool.noConfusion hagain

theorem Quiet.comment_lost (h : Quiet P s (line cs).2 s' rest) (hname : Nameable delimiter)
    (hplain : s.context = .plain)
    (htext : s.kept.text ++ c :: cs = sql ++ (delimiter ++ '\n' :: rest))
    (hline : startsLineComment c cs = true) (htrimmed : s'.kept.trimmed = sql) :
    ∃ behind, delimiter = c :: behind ∧ startsLineComment c behind = true := by
  have hlength : rest.length ≤ cs.length := h.suffix.length_le.trans (line_rest_length_le cs)
  have hc := not_isBlank_of_startsLineComment hline
  rcases startsLineComment_cases hname.line htext hlength hline with
    ⟨behind, hsql, hagain⟩ | hrest
  · -- the marker would have to be kept behind blanks
    exfalso
    obtain ⟨more, hmore⟩ := h.exists_text
    obtain ⟨lead, tail, hlead, rfl, -⟩ := Kept.exists_behind hmore (htrimmed.trans hsql)
    rw [h.not_marker hplain (isSafe_of_allBlank hlead) hmore] at hagain
    exact Bool.noConfusion hagain
  · -- all that is still to be kept is the line feed
    rw [hrest] at h
    have hweight := h.weight_of_lineFeed htrimmed
    rw [← List.append_assoc] at htext
    obtain ⟨behind, hbehind, rfl⟩ :=
      exists_cut htext hlength (ne_of_isBlank isBlank_lineFeed hc).symm
    refine ⟨behind, eq_of_weight_eq hname hc hbehind hweight, ?_⟩
    have hends : EndsLook [] '\n' := ⟨Or.inl isBreak_lineFeed, List.not_mem_nil⟩
    exact (ReadsLike.append hends behind rest).startsLineComment hline

theorem Quiet.exists_comment_behind {word blank behind gap : List Char} {b : Char}
    (h : Quiet P s cs s' rest) (hplain : s.context = .plain) (hstart : s.lineStart = true)
    (hword : word.map Char.toLower = keyword) (hblank : allBlank blank = true)
    (hone : ∀ e ∈ blank, isBreak e = false) (hb : isBreak b = true)
    (hgap : allBlank gap = true) (hplace : s.kept.text = [] ∨ gap = [])
    (hkept : s'.kept.text = s.kept.text ++ (gap ++ (word ++ (blank ++ b :: behind)))) :
    blank = [] ∧ ∃ s₁ e cs₁, Quiet P s cs s₁ (e :: cs₁) ∧ Quiet P s₁ (e :: cs₁) s' rest ∧
      s₁.kept.text = s.kept.text ++ (gap ++ word) ∧ startsLineComment e cs₁ = true := by
  obtain ⟨w, word', rfl⟩ : ∃ w word', word = w :: word' := by
    exact List.exists_cons_of_ne_nil (ne_nil_of_word hword)
  have hw : Text.isBlank w = false := not_isBlank_of_mem_word hword List.mem_cons_self
  have hbreak : ∀ e ∈ word', isBreak e = false :=
    fun e he => not_isBreak_of_mem_word hword (List.mem_cons_of_mem _ he)
  obtain ⟨s₁, cs₁, s₂, hbefore, htext₁, hstep, hkeeps, hafter⟩ :=
    h.exists_keep (isSafe_of_mem_word hword List.mem_cons_self).not_isMark hkept
  have hplain₁ : s₁.context = .plain := hbefore.plain hplain (isSafe_of_allBlank hgap) htext₁
  have hread : Directive.read? (w :: cs₁) = none := by
    have hnone := directive?_of_step hplain₁ hstep
    have hstands : (s₁.lineStart || s₁.isBlank) = true := by
      rcases hplace with hnil | rfl
      · rw [isBlank_eq, htext₁, hnil, List.nil_append, hgap, Bool.or_true]
      · rw [hbefore.lineStart hstart (by rw [htext₁, List.append_nil]), Bool.true_or]
    unfold directive? at hnone
    cases hread : Directive.read? (w :: cs₁) with
    | none => rfl
    | some d => simp [hread, hstands] at hnone
  have hinline : InLine s₂ := hkeeps.inLine hw
  have htext₂ : s'.kept.text = s₂.kept.text ++ (word' ++ (blank ++ b :: behind)) := by
    rw [hkept, hkeeps.text, htext₁]
    simp
  have hnot : ∀ e more, cs₁ = word' ++ e :: more → Text.isBlank e = false := by
    intro e more hcs
    exact Directive.read?_eq_none.1 hread (w :: word') (e :: more) (by rw [hcs]; rfl) hword
  cases blank with
  | cons e blank =>
    exfalso
    have hline : ∀ x ∈ word' ++ [e], isBreak x = false := by
      intro x hx
      rcases List.mem_append.1 hx with hx | hx
      · exact hbreak x hx
      · rw [List.mem_singleton.1 hx]
        exact hone e List.mem_cons_self
    have htext₃ : s'.kept.text = s₂.kept.text ++ ((word' ++ [e]) ++ (blank ++ b :: behind)) := by
      rw [htext₂]
      simp
    obtain ⟨more, hmore⟩ := hafter.contiguous hinline (word' ++ [e]) hline htext₃
    have he := hnot e more (by rw [← hmore, List.append_assoc, List.singleton_append])
    rw [allBlank_cons, he] at hblank
    exact Bool.noConfusion hblank
  | nil =>
    obtain ⟨s₃, e, cs₃, hcs₃, hquiet, htext₃, hrest, he⟩ :=
      hafter.until_break hinline hb hbreak htext₂
    refine ⟨rfl, s₃, e, cs₃, hbefore.trans (.keep hstep hkeeps hquiet), hrest, ?_, ?_⟩
    · rw [htext₃, hkeeps.text, htext₁]
      simp
    · exact he.resolve_left (ne_of_isBlank (isBlank_of_isBreak hb) (hnot e cs₃ hcs₃)).symm

/-- A directive without a token is not lost: where it would have to be kept, a comment must follow
the keyword, and so a comment marker would have to be kept as well. -/
theorem Quiet.not_directive {word blank more lead : List Char} {b : Char}
    (h : Quiet (· = []) s cs s' rest) (hname : Nameable delimiter) (hends : EndsGuarded sql)
    (hplain : s.context = .plain) (hstart : s.lineStart = true)
    (hword : word.map Char.toLower = keyword) (hblank : allBlank blank = true)
    (hone : ∀ e ∈ blank, isBreak e = false) (hb : isBreak b = true)
    (hlead : ∀ e ∈ lead, IsSafe e)
    (hsql : sql = s.kept.text ++ (word ++ (blank ++ b :: more)))
    (htext : lead ++ cs = b :: more ++ (delimiter ++ '\n' :: rest))
    (htrimmed : s'.kept.trimmed = sql) : False := by
  obtain ⟨kept, hkept⟩ := h.exists_text
  obtain ⟨gap, tail, hgap, rfl, hplace⟩ := Kept.exists_behind hkept (htrimmed.trans hsql)
  have hagain : s'.kept.text =
      s.kept.text ++ (gap ++ (word ++ (blank ++ b :: (more ++ tail)))) := by
    rw [hkept]
    simp
  obtain ⟨rfl, s₁, e, cs₁, hbefore, hafter, htext₁, hcomment⟩ :=
    h.exists_comment_behind hplain hstart hword hblank hone hb hgap hplace hagain
  have hsafe : ∀ x ∈ gap ++ word, IsSafe x := fun x hx => (List.mem_append.1 hx).elim
    (isSafe_of_allBlank hgap x) (isSafe_of_mem_word hword)
  -- the first comment behind the directive
  obtain ⟨front, c, cs₂, s₂, rfl, hfront, hline, hplain₂, hbefore₂, hafter₂⟩ :=
    hbefore.exists_comment hplain hsafe htext₁ hcomment
  have hquiet := hafter₂.trans hafter
  obtain ⟨kept₂, hkept₂⟩ := hafter₂.exists_text
  have hlength : rest.length ≤ cs₂.length := by
    refine hquiet.length_le_of_ne fun hsame => ?_
    have hlong := congrArg List.length hagain
    rw [hsame, ← List.append_assoc gap, ← List.append_assoc s.kept.text, ← htext₁, hkept₂] at hlong
    simp only [List.length_append, List.length_cons, List.length_nil] at hlong
    omega
  have hplace₂ : (s.kept.text ++ (word ++ (lead ++ front))) ++ c :: cs₂ =
      sql ++ (delimiter ++ '\n' :: rest) := by
    rw [hsql, List.nil_append, List.append_assoc, List.append_assoc, List.append_assoc, htext]
    simp
  rcases startsLineComment_cases hname.line hplace₂ hlength hline with
    ⟨behind, hbehind, hmarker⟩ | hrest
  · have hmore : b :: more = lead ++ (front ++ c :: behind) := by
      rw [hsql] at hbehind
      simpa using hbehind
    have hkeep : s'.kept.text =
        s.kept.text ++ ((gap ++ (word ++ (lead ++ front))) ++ c :: (behind ++ tail)) := by
      rw [hagain, ← List.cons_append, hmore]
      simp
    have hfront' : ∀ x ∈ gap ++ (word ++ (lead ++ front)), IsSafe x := by
      intro x hx
      rw [← List.append_assoc] at hx
      rcases List.mem_append.1 hx with hx | hx
      · exact hsafe x hx
      · exact (List.mem_append.1 hx).elim (hlead x) (hfront x)
    rw [h.not_marker hplain hfront' hkeep] at hmarker
    exact Bool.noConfusion hmarker
  · -- only the line feed is kept behind the comment, so the text ends with the directive's line
    have hfeed := hquiet.of_comment hplain₂ hline hlength
    rw [hrest] at hfeed
    have hweight : weight (b :: more) = 0 := by
      have hall := hfeed.weight_of_lineFeed htrimmed
      have hless := weight_le_of_front ⟨kept₂, hkept₂.symm⟩
      rw [hall, hsql, htext₁] at hless
      simp only [weight_append, weight_eq_zero.2 hgap] at hless
      omega
    exact hends.not_safe hsql (fun x hx => isSafe_of_mem_word hword hx) (ne_nil_of_word hword)
      (weight_eq_zero.1 hweight) (List.cons_ne_nil _ _)

theorem Quiet.token_eq_nil {d : Directive} (h : Quiet P (s.redefine d.token) d.rest s' rest)
    (hsame : s'.delimiter = delimiter) (hread : Directive.read? (c :: cs) = some d)
    (hweight : weight s.kept.text + weight (c :: cs) ≤
      weight s'.kept.text + weight rest + weight delimiter) : d.token = [] := by
  have hkeyword := weight_keyword
  have hline := weight_of_read? hread
  by_contra hne
  have hredefine : (s.redefine d.token).delimiter = d.token := by simp [redefine, hne]
  have hbudget := h.budget
  rw [hredefine, hsame, kept_redefine] at hbudget
  unfold change at hbudget
  split at hbudget
  · rename_i heq
    rw [heq] at hweight
    omega
  · omega

theorem Quiet.delimiter_of_line {d : Directive} {behind : List Char}
    (h : Quiet P (s.redefine d.token) d.rest s' rest) (hname : Nameable delimiter)
    (hread : Directive.read? ((c :: behind) ++ '\n' :: rest) = some d) (htoken : d.token = [])
    (hone : ∀ e ∈ c :: behind, isBreak e = false)
    (htext : sql ++ delimiter = s.kept.text ++ c :: behind) (htrimmed : s'.kept.trimmed = sql) :
    delimiter.map Char.toLower = keyword ∧ s'.lineStart = true := by
  have hc := Directive.not_isBlank_head_of_read? hread
  obtain ⟨word, blank, hword', hword, -, htrim, hrest⟩ :=
    Directive.read?_line hread isBreak_lineFeed hone
  rw [hrest, dropTerminator_lineFeed] at h
  have hend := h.runs.eq_of_refl
  refine ⟨?_, by rw [hend]; rfl⟩
  have hdelimiter : delimiter = c :: behind := by
    apply eq_of_weight_eq hname hc htext
    rw [← weight_text_of_trimmed htrimmed, hend, kept_redefine]
  -- the delimiter does not end with a blank
  have hblank : allBlank blank = true := by rw [← trim_eq_nil, ← htrim, htoken]
  have hnil : blank = [] := by
    rcases List.eq_nil_or_concat' blank with rfl | ⟨blank', e, rfl⟩
    · rfl
    · have hlast : trimEnd (trimStart delimiter) = (word ++ blank') ++ [e] := by
        rw [← trim, hname.trimmed, hdelimiter, hword', List.append_assoc]
      rw [allBlank_append, allBlank_cons, not_isBlank_last_trimEnd hlast] at hblank
      simp at hblank
  rw [hdelimiter, hword', hnil, List.append_nil, hword]

theorem Quiet.not_inside {d : Directive} {front more : List Char} {b : Char}
    (h : Quiet (· = []) (s.redefine d.token) d.rest s' rest) (hname : Nameable delimiter)
    (hends : EndsGuarded sql) (hplain : s.context = .plain)
    (hread : Directive.read? (front ++ b :: (more ++ delimiter ++ '\n' :: rest)) = some d)
    (htoken : d.token = []) (hb : isBreak b = true) (hone : ∀ e ∈ front, isBreak e = false)
    (hsql : sql = s.kept.text ++ front ++ b :: more) (htrimmed : s'.kept.trimmed = sql) :
    False := by
  obtain ⟨word, blank, rfl, hword, -, htrim, hrest⟩ := Directive.read?_line hread hb hone
  obtain ⟨lead, hdrop, hlead⟩ :=
    exists_append_dropTerminator (more ++ delimiter ++ '\n' :: rest) hb
  have hblank : allBlank blank = true := by rw [← trim_eq_nil, ← htrim, htoken]
  have hkept : sql = (s.redefine d.token).kept.text ++ (word ++ (blank ++ b :: more)) := by
    rw [hsql, kept_redefine]
    simp
  have hunread : lead ++ d.rest = b :: more ++ (delimiter ++ '\n' :: rest) := by
    rw [hrest, ← hdrop]
    simp
  exact h.not_directive hname hends hplain rfl hword hblank
    (fun e he => hone e (List.mem_append_right _ he)) hb (isSafe_of_allBlank hlead) hkept hunread
    htrimmed

theorem Quiet.directive_lost {d : Directive} (h : Quiet P (s.redefine d.token) d.rest s' rest)
    (hname : Nameable delimiter) (hends : EndsGuarded sql) (hplain : s.context = .plain)
    (hdelimiter : s.delimiter = delimiter) (hsame : s'.delimiter = delimiter)
    (htext : s.kept.text ++ c :: cs = sql ++ (delimiter ++ '\n' :: rest))
    (hd : s.directive? (c :: cs) = some d) (htrimmed : s'.kept.trimmed = sql) :
    delimiter.map Char.toLower = keyword ∧ s'.lineStart = true := by
  have hkeyword := weight_keyword
  have hread := read?_of_directive? hd
  have hc := Directive.not_isBlank_head_of_read? hread
  have hline := weight_of_read? hread
  have hsql := weight_text_of_trimmed htrimmed
  have hall := congrArg weight htext
  rw [weight_glued, weight_append] at hall
  have htoken := h.token_eq_nil hsame hread (by omega)
  have hlength : rest.length ≤ cs.length := by
    have hlong := h.suffix.length_le
    have hshort := Directive.read?_length hread
    rw [List.length_cons] at hshort
    omega
  rw [← List.append_assoc] at htext
  obtain ⟨behind, hbehind, rfl⟩ :=
    exists_cut htext hlength (ne_of_isBlank isBlank_lineFeed hc).symm
  rcases exists_line (c :: behind) with hone | ⟨front, b, more, hfront, hb, hone⟩
  · exact h.delimiter_of_line hname hread htoken hone hbehind htrimmed
  · exfalso
    rw [hfront, ← List.append_assoc] at hbehind
    obtain ⟨more, hsql', rfl⟩ := exists_break hname.line hb hbehind
    have hredefine : (s.redefine d.token).delimiter = delimiter := by
      rw [htoken, ← hdelimiter]
      rfl
    have hquiet : Quiet (· = []) (s.redefine d.token) d.rest s' rest := by
      apply h.names_nothing (hsame.trans hredefine.symm)
      rw [kept_redefine, hredefine]
      omega
    rw [← List.cons_append, hfront, List.append_assoc, List.cons_append] at hread
    exact hquiet.not_inside hname hends hplain hread htoken hb hone hsql' htrimmed

end
end Scanner
end SqlBatch.Script
