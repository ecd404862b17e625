import SqlBatch.Proofs.Script.Lost

/-! A directive that is lost in part. If a run starts inside a directive line and still comes to the
delimiter which that line names, a directive in the text of the statement has named it. Then all of
this text can not have been kept: its directive would have to be kept from an earlier place of the
text, where it would have been read before. -/

namespace SqlBatch.Script

open Text

section
variable {lag front cs sql delimiter rest : List Char} {c : Char}

theorem exists_behind_lag {behind : List Char} (htext : front ++ c :: cs = lag ++ '\n' :: behind) :
    (∃ part, part <:+ lag ∧ c :: cs = part ++ '\n' :: behind) ∨
      ∃ front', front = lag ++ '\n' :: front' ∧ behind = front' ++ c :: cs := by
  rcases List.append_eq_append_iff.1 htext with ⟨part, hpart, hcs⟩ | ⟨more, hmore, hbehind⟩
  · exact Or.inl ⟨part, ⟨front, hpart.symm⟩, hcs⟩
  · cases more with
    | nil => exact Or.inl ⟨[], List.nil_suffix, hbehind.symm⟩
    | cons e more =>
      obtain ⟨rfl, htail⟩ := List.cons.inj hbehind
      exact Or.inr ⟨more, hmore, htail⟩

theorem front_of_not_isBreak {line part behind : List Char} {b : Char}
    (h : line <+: part ++ b :: behind) (hb : isBreak b = true)
    (hone : ∀ e ∈ line, isBreak e = false) : line <+: part := by
  obtain ⟨more, hmore⟩ := h
  rcases List.append_eq_append_iff.1 hmore with ⟨tail, htail, -⟩ | ⟨tail, htail, hbehind⟩
  · exact ⟨tail, htail.symm⟩
  · cases tail with
    | nil => exact ⟨[], by rw [htail, List.append_nil, List.append_nil]⟩
    | cons e tail =>
      obtain ⟨rfl, -⟩ := List.cons.inj hbehind
      rw [hone b (by rw [htail]; simp)] at hb
      exact Bool.noConfusion hb

theorem front_of_length_le {first line text more : List Char} (h : first ++ line <+: text ++ more)
    (hfront : front ++ line <+: text) (hle : first.length ≤ front.length) :
    first ++ line <+: text := by
  apply List.prefix_of_prefix_length_le h (List.prefix_append text more)
  have hfits := hfront.length_le
  rw [List.length_append] at hfits ⊢
  omega

theorem EndsGuarded.not_naming {word tail : List Char} (hends : EndsGuarded sql)
    (hname : Nameable delimiter) (hword : word.map Char.toLower = keyword)
    (hhead : tail.head?.all isBlank = true) (hweight : weight tail = weight delimiter)
    (htext : sql ++ delimiter = front ++ (word ++ tail)) : False := by
  have hne : tail ≠ delimiter := by
    rintro rfl
    obtain ⟨e, es, rfl⟩ := List.exists_cons_of_ne_nil hname.nonempty
    rw [List.head?_cons, Option.all_some, hname.not_isBlank_head rfl] at hhead
    exact Bool.noConfusion hhead
  rw [← List.append_assoc] at htext
  obtain ⟨gap, hgap, hsql, htail⟩ := Scanner.exists_gap hname htext hweight
  rw [List.append_assoc] at hsql
  apply hends.not_safe hsql (fun e he => isSafe_of_mem_word hword he) (ne_nil_of_word hword) hgap
  rintro rfl
  exact hne htail

theorem exists_naming_line {d : Directive} (hread : Directive.read? (c :: cs) = some d)
    (htoken : d.token = delimiter) (hname : Nameable delimiter) (hends : EndsGuarded sql)
    (hlag : ∀ e ∈ lag, isBreak e = false) (hlight : weight lag < weight keyword + weight delimiter)
    (htext : front ++ c :: cs = lag ++ '\n' :: (sql ++ (delimiter ++ '\n' :: rest)))
    (hlength : rest.length ≤ cs.length) :
    ∃ front' line, sql ++ (delimiter ++ '\n' :: rest) = front' ++ c :: cs ∧
      front' ++ c :: line <+: sql ∧ (∀ e ∈ c :: line, isBreak e = false) ∧
      weight (c :: line) = weight keyword + weight delimiter := by
  have hc := Directive.not_isBlank_head_of_read? hread
  have hheavy : ∀ word behind, word.map Char.toLower = keyword → d.token = trim behind →
      weight (word ++ behind) = weight keyword + weight delimiter := by
    intro word behind hword htrim
    rw [weight_append, weight_of_keyword hword, ← htoken, htrim, weight_trim]
  rcases exists_behind_lag htext with ⟨part, hpart, hcs⟩ | ⟨front', -, hbehind⟩
  · exfalso
    rw [hcs] at hread
    obtain ⟨word, behind, rfl, hword, -, htrim, -⟩ :=
      Directive.read?_line hread isBreak_lineFeed fun e he => hlag e (hpart.subset he)
    have hle := weight_le_of_suffix hpart
    rw [hheavy word behind hword htrim] at hle
    omega
  · have hglued := hbehind.symm
    rw [← List.append_assoc] at hglued
    obtain ⟨behind, hcut, rfl⟩ := exists_cut hglued hlength
      (Scanner.ne_of_isBlank isBlank_lineFeed hc).symm
    rcases exists_line (c :: behind) with hone | ⟨first, b, more, hfirst, hb, hone⟩
    · exfalso
      have hline : Directive.read? ((c :: behind) ++ '\n' :: rest) = some d := hread
      obtain ⟨word, tail, hword', hword, hhead, htrim, -⟩ :=
        Directive.read?_line hline isBreak_lineFeed hone
      rw [hword'] at hcut
      exact hends.not_naming hname hword hhead (by rw [← htoken, htrim, weight_trim]) hcut
    · rw [hfirst, ← List.append_assoc] at hcut
      obtain ⟨more, hsql, rfl⟩ := exists_break hname.line hb hcut
      have hsplit : c :: (behind ++ '\n' :: rest) =
          first ++ b :: (more ++ delimiter ++ '\n' :: rest) := by
        rw [← List.cons_append, hfirst, List.append_assoc, List.cons_append]
      rw [hsplit] at hread
      obtain ⟨word, tail, hword', hword, -, htrim, -⟩ := Directive.read?_line hread hb hone
      obtain ⟨line, rfl⟩ : ∃ line, first = c :: line := by
        cases first with
        | nil =>
          obtain ⟨rfl, -⟩ := List.cons.inj hfirst
          rw [isBlank_of_isBreak hb] at hc
          exact Bool.noConfusion hc
        | cons e first => exact ⟨first, by rw [(List.cons.inj hfirst).1]⟩
      refine ⟨front', line, hbehind, ⟨b :: more, hsql.symm⟩, hone, ?_⟩
      rw [hword', hheavy word tail hword htrim]

namespace Scanner
variable {P : List Char → Prop} {s s₁ s' : Scanner} {earlier line : List Char}

theorem Quiet.exists_kept (h : Quiet P s cs s' rest) (hne : s.delimiter ≠ s'.delimiter)
    {kept behind : List Char} (htext : s'.kept.text = kept ++ c :: behind)
    (hweight : weight kept + weight cs + 1 <
      weight keyword + weight s'.delimiter + weight s'.kept.text + weight rest) :
    ∃ more, s.kept.text = kept ++ c :: more := by
  obtain ⟨more, hmore⟩ := h.exists_text
  have hcopy : kept ++ [c] <+: s'.kept.text := ⟨behind, by rw [htext]; simp⟩
  rcases List.prefix_or_prefix_of_prefix hcopy ⟨more, hmore.symm⟩ with ⟨last, hlast⟩ | hshort
  · exact ⟨last, by rw [← hlast]; simp⟩
  · exfalso
    have hless := weight_le_of_front hshort
    have hneeds := h.budget_of_ne hne
    have hone : weight [c] ≤ 1 := List.countP_le_length
    rw [weight_append] at hless
    omega

theorem Quiet.exists_copy {unread kept behind : List Char}
    (hbefore : Quiet (· ≠ delimiter) s unread s₁ (c :: cs)) (hafter : Quiet P s₁ (c :: cs) s' rest)
    (hkept : s.kept.text = []) (hother : s.delimiter ≠ delimiter) (hsame : s'.delimiter = delimiter)
    (hone : ∀ e ∈ c :: line, isBreak e = false) (hc : Text.isBlank c = false) (hmark : ¬IsMark c)
    (htext : s'.kept.text = kept ++ c :: (line ++ behind))
    (hweight : weight kept + weight (c :: cs) + 1 <
      weight keyword + weight delimiter + weight s'.kept.text + weight rest) :
    ∃ s₂ cs₂, Quiet (· ≠ delimiter) s unread s₂ (c :: cs₂) ∧ s₂.kept.text = kept ∧
      c :: line <+: c :: cs₂ ∧ cs.length < cs₂.length ∧
      Quiet (fun _ => True) s₂ (c :: cs₂) s' rest := by
  have hafter' : Quiet (fun _ => True) s₁ (c :: cs) s' rest := hafter.mono fun _ _ => trivial
  have hswitch : s₁.delimiter ≠ s'.delimiter := by
    rw [hsame]
    exact hbefore.delimiter_ne hother
  obtain ⟨more, hmore⟩ := hafter'.exists_kept hswitch htext (by rwa [hsame])
  rw [← List.nil_append (kept ++ c :: more), ← hkept] at hmore
  obtain ⟨s₂, cs₂, s₃, hbefore₂, htext₂, hstep, hkeeps, hafter₂⟩ := hbefore.exists_keep hmark hmore
  rw [hkept, List.nil_append] at htext₂
  have hrest : Quiet (fun _ => True) s₃ cs₂ s' rest :=
    (hafter₂.mono fun _ _ => trivial).trans hafter'
  have htext₃ : s'.kept.text = s₃.kept.text ++ (line ++ behind) := by
    rw [htext, hkeeps.text, htext₂]
    simp
  have hline : line <+: cs₂ := hrest.contiguous (hkeeps.inLine hc) line
    (fun e he => hone e (List.mem_cons_of_mem _ he)) htext₃
  exact ⟨s₂, cs₂, hbefore₂, htext₂, List.cons_prefix_cons.2 ⟨rfl, hline⟩,
    hafter₂.suffix.length_le, .keep hstep hkeeps hrest⟩

/-- Where the line of the directive is kept from, it stands earlier in the text. -/
theorem Quiet.exists_earlier
    (hbefore : Quiet (· ≠ delimiter) s (lag ++ '\n' :: (sql ++ (delimiter ++ '\n' :: rest)))
      s₁ (c :: cs))
    (hafter : Quiet P s₁ (c :: cs) s' rest) (hkept : s.kept.text = [])
    (hother : s.delimiter ≠ delimiter) (hsame : s'.delimiter = delimiter)
    (htrimmed : s'.kept.trimmed = sql) (hlight : weight lag < weight keyword + weight delimiter)
    (hplace : sql ++ (delimiter ++ '\n' :: rest) = front ++ c :: cs)
    (hfront : front ++ c :: line <+: sql) (hone : ∀ e ∈ c :: line, isBreak e = false)
    (hweight : weight (c :: line) = weight keyword + weight delimiter)
    (hc : Text.isBlank c = false) (hmark : ¬IsMark c)
    (hearlier : earlier ++ c :: line <+: sql) (hle : earlier.length ≤ front.length) :
    ∃ first, first.length < earlier.length ∧ first ++ c :: line <+: sql := by
  have hkeyword := weight_keyword
  have hsql := weight_text_of_trimmed htrimmed
  have hunread := congrArg weight hplace
  rw [weight_glued, weight_append] at hunread
  have hfront' : front <+: sql := (List.prefix_append _ _).trans hfront
  have hearlier' : earlier <+: sql := (List.prefix_append _ _).trans hearlier
  have hbelow : weight earlier ≤ weight front :=
    weight_le_of_front (List.prefix_of_prefix_length_le hearlier' hfront' hle)
  obtain ⟨gap, tail, hgap, -, hall⟩ := s'.kept.exists_text_eq
  obtain ⟨behind, hbehind⟩ := hearlier
  rw [htrimmed, ← hbehind] at hall
  have htext : s'.kept.text = (gap ++ earlier) ++ c :: (line ++ (behind ++ tail)) := by
    rw [hall]
    simp
  obtain ⟨s₂, cs₂, hbefore₂, htext₂, hline, hlonger, hrest⟩ :=
    hbefore.exists_copy hafter hkept hother hsame hone hc hmark htext (by
      rw [hsql, weight_append, weight_eq_zero.2 hgap]
      omega)
  obtain ⟨front₂, hfront₂⟩ := hbefore₂.suffix
  rcases exists_behind_lag hfront₂ with ⟨part, hpart, hcs⟩ | ⟨first, -, hfirst⟩
  · -- the lag is too light for the line
    exfalso
    rw [hcs] at hline
    have hle₁ := weight_le_of_front (front_of_not_isBreak hline (by decide) hone)
    have hle₂ := weight_le_of_suffix hpart
    omega
  · have hlength : first.length < front.length := by
      have hsame := congrArg List.length (hfirst.symm.trans hplace)
      simp only [List.length_append, List.length_cons] at hsame
      omega
    have hlarge : first ++ c :: line <+: sql ++ (delimiter ++ '\n' :: rest) := by
      rw [hfirst]
      exact (List.prefix_append_right_inj first).2 hline
    have hwhole : first ++ c :: line <+: sql := front_of_length_le hlarge hfront hlength.le
    refine ⟨first, ?_, hwhole⟩
    by_contra hlater
    -- from there on too little is unread for all that is still to be kept
    have hswitch : s₂.delimiter ≠ s'.delimiter := by
      rw [hsame]
      exact hbefore₂.delimiter_ne hother
    have hneeds := hrest.budget_of_ne hswitch
    rw [htext₂, weight_append, weight_eq_zero.2 hgap, hsame, hsql] at hneeds
    have hunread₂ := congrArg weight hfirst
    rw [weight_glued, weight_append] at hunread₂
    have hfirst' : first <+: sql := (List.prefix_append _ _).trans hwhole
    have hless := weight_le_of_front
      (List.prefix_of_prefix_length_le hearlier' hfirst' (Nat.not_lt.1 hlater))
    omega

theorem Quiet.not_switched
    (h : Quiet P s (lag ++ '\n' :: (sql ++ (delimiter ++ '\n' :: rest))) s' rest)
    (hname : Nameable delimiter) (hends : EndsGuarded sql) (hkept : s.kept.text = [])
    (hother : s.delimiter ≠ delimiter) (hsame : s'.delimiter = delimiter)
    (htrimmed : s'.kept.trimmed = sql) (hlag : ∀ e ∈ lag, isBreak e = false)
    (hlight : weight lag < weight keyword + weight delimiter) : False := by
  obtain ⟨s₁, c, cs, d, hbefore, -, hread, htoken, hafter⟩ := h.exists_naming hother hsame
  have hlength : rest.length ≤ cs.length := by
    refine hafter.length_le_of_ne ?_
    rintro rfl
    exact hbefore.delimiter_ne hother hsame
  obtain ⟨before, htext⟩ := hbefore.suffix
  obtain ⟨front, line, hplace, hfront, hone, hweight⟩ :=
    exists_naming_line hread htoken hname hends hlag hlight htext hlength
  have hc := Directive.not_isBlank_head_of_read? hread
  have hsafe : IsSafe c := Or.inr (by rw [Directive.toLower_head_of_read? hread]; decide)
  -- no copy of the line is the first one
  have hnone : ∀ n, ∀ earlier : List Char, earlier.length = n → earlier.length ≤ front.length →
      ¬earlier ++ c :: line <+: sql := by
    intro n
    induction n using Nat.strong_induction_on with
    | _ n ih =>
      rintro earlier rfl hle hcopy
      obtain ⟨first, hfirst, hagain⟩ := hbefore.exists_earlier hafter hkept hother hsame htrimmed
        hlight hplace hfront hone hweight hc hsafe.not_isMark hcopy hle
      exact ih _ hfirst first rfl (hfirst.le.trans hle) hagain
  exact hnone _ front rfl le_rfl hfront

end Scanner
end

end SqlBatch.Script
