import SqlBatch.Proofs.Script.Runs

/-! A scanner in the middle of a script and one at the start of its own. Behind statements that are
closed already, and behind blank text, every step is what it is at the start of a script: the same
text is read, and the statements closed differ in their place only. -/

namespace SqlBatch

def Statement.behind (n : Nat) (x : Statement) : Statement := { x with index := n + x.index }

namespace Script

open Text

def Kept.behind (lead : List Char) (k : Kept) : Kept :=
  if k.guarded = [] then { k with loose := lead ++ k.loose }
  else { k with guarded := lead ++ k.guarded }

namespace Kept

@[simp] theorem text_behind (lead : List Char) (k : Kept) :
    (k.behind lead).text = lead ++ k.text := by
  unfold behind
  split
  · rename_i hguarded
    simp [text, hguarded]
  · simp [text]

theorem behind_push (lead : List Char) (k : Kept) (cs : List Char) :
    (k.push cs).behind lead = (k.behind lead).push cs := by
  unfold behind push
  split <;> simp

theorem behind_pushGuarded (lead : List Char) (k : Kept) (c : Char) :
    (k.pushGuarded [c]).behind lead = (k.behind lead).pushGuarded [c] := by
  rw [pushGuarded, pushGuarded, text_behind, behind, if_neg (by simp)]
  simp

theorem trimmed_behind {lead : List Char} (h : allBlank lead = true) (k : Kept) :
    (k.behind lead).trimmed = k.trimmed := by
  rw [trimmed_eq, trimmed_eq, behind]
  split
  · rename_i hguarded
    rw [hguarded, List.nil_append, List.nil_append]
    cases hloose : allBlank k.loose with
    | true =>
      rw [trimEnd_eq_nil.2 hloose, trimEnd_eq_nil.2 (by rw [allBlank_append, h, hloose]; rfl)]
    | false => rw [trimEnd_append_of_not_allBlank _ hloose, trimStart_append_of_allBlank h]
  · rw [List.append_assoc, trimStart_append_of_allBlank h]

end Kept

namespace Scanner

/-- `t` is where `s` is, behind the statements `earlier` and behind blank text. Whether a line
starts matters only once something is kept. -/
structure Continues (earlier : List Statement) (s t : Scanner) : Prop where
  delimiter : t.delimiter = s.delimiter
  context : t.context = s.context
  statements : t.statements.toList =
    earlier ++ s.statements.toList.map (Statement.behind earlier.length)
  kept : ∃ lead, allBlank lead = true ∧ t.kept = s.kept.behind lead
  lineStart : t.lineStart = s.lineStart ∨ allBlank s.kept.text = true

namespace Continues
variable {earlier : List Statement} {s t : Scanner}

theorem isBlank (h : Continues earlier s t) : t.isBlank = s.isBlank := by
  obtain ⟨lead, hlead, hkept⟩ := h.kept
  rw [isBlank_eq, isBlank_eq, hkept, Kept.text_behind, allBlank_append, hlead, Bool.true_and]

theorem trimmed (h : Continues earlier s t) : t.kept.trimmed = s.kept.trimmed := by
  obtain ⟨lead, hlead, hkept⟩ := h.kept
  rw [hkept, Kept.trimmed_behind hlead]

theorem directive?_eq (h : Continues earlier s t) (cs : List Char) :
    t.directive? cs = s.directive? cs := by
  have hplace : (t.lineStart || t.isBlank) = (s.lineStart || s.isBlank) := by
    rw [h.isBlank]
    rcases h.lineStart with hline | hblank
    · rw [hline]
    · rw [isBlank_eq s, hblank, Bool.or_true, Bool.or_true]
  unfold directive?
  rw [hplace]

theorem enter (h : Continues earlier s t) (context : Context) :
    Continues earlier { s with context := context } { t with context := context } :=
  { h with context := rfl }

theorem lineStartAfter (h : Continues earlier s t) (c : Char) :
    Scanner.lineStartAfter c t.lineStart = Scanner.lineStartAfter c s.lineStart ∨
      allBlank (s.kept.text ++ [c]) = true := by
  rcases h.lineStart with hline | hblank
  · exact Or.inl (by rw [hline])
  · cases hc : Text.isBlank c with
    | true => exact Or.inr (by simp [hblank, hc])
    | false =>
      exact Or.inl (by rw [lineStartAfter_of_not_isBlank hc, lineStartAfter_of_not_isBlank hc])

theorem keep (h : Continues earlier s t) (c : Char) : Continues earlier (s.keep c) (t.keep c) := by
  obtain ⟨lead, hlead, hkept⟩ := h.kept
  refine ⟨h.delimiter, h.context, h.statements, ⟨lead, hlead, ?_⟩, ?_⟩
  · rw [kept_keep, kept_keep, hkept, Kept.behind_push]
  · rw [kept_keep, Kept.text_push]
    exact h.lineStartAfter c

theorem keepMarker (h : Continues earlier s t) (first second : Char) :
    Continues earlier (s.keepMarker first second) (t.keepMarker first second) := by
  obtain ⟨lead, hlead, hkept⟩ := h.kept
  refine ⟨h.delimiter, h.context, h.statements, ⟨lead, hlead, ?_⟩, Or.inl rfl⟩
  rw [kept_keepMarker, kept_keepMarker, hkept, Kept.behind_push]

theorem keepEscaped (h : Continues earlier s t) (c : Char) :
    Continues earlier (s.keepEscaped c) (t.keepEscaped c) := by
  obtain ⟨lead, hlead, hkept⟩ := h.kept
  refine ⟨h.delimiter, h.context, h.statements, ⟨lead, hlead, ?_⟩, ?_⟩
  · rw [kept_keepEscaped, kept_keepEscaped, hkept, Kept.behind_pushGuarded]
  · rw [kept_keepEscaped, Kept.text_pushGuarded]
    exact h.lineStartAfter c

theorem commit (h : Continues earlier s t) : Continues earlier s.commit t.commit := by
  refine ⟨h.delimiter, h.context, ?_, ⟨[], rfl, rfl⟩, Or.inr rfl⟩
  have hsize : t.statements.size = earlier.length + s.statements.size := by
    have hlength := congrArg List.length h.statements
    rwa [List.length_append, List.length_map, Array.length_toList, Array.length_toList] at hlength
  rw [statements_commit, statements_commit, Array.toList_push, Array.toList_push, h.statements,
    h.trimmed, h.delimiter, hsize, List.map_append, List.append_assoc]
  rfl

theorem redefine (h : Continues earlier s t) (token : List Char) :
    Continues earlier (s.redefine token) (t.redefine token) := by
  refine ⟨?_, h.context, h.statements, h.kept, Or.inl rfl⟩
  rw [Scanner.redefine, Scanner.redefine, h.delimiter]

theorem stepBare (h : Continues earlier s t) (c : Char) (cs : List Char) :
    (t.stepBare c cs).2 = (s.stepBare c cs).2 ∧
      Continues earlier (s.stepBare c cs).1 (t.stepBare c cs).1 := by
  have hafter : t.afterDelimiter? c cs = s.afterDelimiter? c cs := by
    rw [afterDelimiter?, afterDelimiter?, h.delimiter]
  rw [Scanner.stepBare, Scanner.stepBare, h.directive?_eq, hafter]
  cases s.directive? (c :: cs) with
  | some d => exact ⟨rfl, h.redefine d.token⟩
  | none =>
    cases s.afterDelimiter? c cs with
    | some rest => exact ⟨rfl, h.commit⟩
    | none => exact ⟨rfl, h.keep c⟩

theorem step (h : Continues earlier s t) (c : Char) (cs : List Char) :
    (t.step c cs).2 = (s.step c cs).2 ∧ Continues earlier (s.step c cs).1 (t.step c cs).1 := by
  rw [Scanner.step, Scanner.step, h.context]
  cases s.context with
  | plain =>
    simp only [stepPlain]
    split
    · exact ⟨rfl, (h.keep c).enter _⟩
    · split
      · exact ⟨rfl, (h.keepMarker '/' '*').enter _⟩
      · split
        · exact ⟨rfl, h⟩
        · split
          · exact ⟨rfl, (h.keep c).enter _⟩
          · exact h.stepBare c cs
  | escape inside => exact ⟨rfl, (h.keepEscaped c).enter _⟩
  | literal quote => exact ⟨rfl, (h.keep c).enter _⟩
  | comment enclosing =>
    simp only [stepComment]
    split
    · exact ⟨rfl, (h.keepMarker '/' '*').enter _⟩
    · split
      · exact ⟨rfl, (h.keepMarker '*' '/').enter _⟩
      · exact ⟨rfl, h.keep c⟩

/-- A whole scan behind other text is the scan at the start of the script. -/
theorem scan (h : Continues earlier s t) (cs : List Char) :
    Continues earlier (s.scan cs) (t.scan cs) := by
  fun_induction Scanner.scan s cs generalizing t with
  | case1 s => rwa [scan_nil]
  | case2 s c cs next =>
    rename_i ih
    obtain ⟨hrest, hnext⟩ := h.step c cs
    rw [scan_cons, hrest]
    exact ih hnext

theorem finish (h : Continues earlier s t) :
    t.finish = earlier ++ s.finish.map (Statement.behind earlier.length) := by
  unfold Scanner.finish
  rw [h.isBlank]
  split
  · exact h.statements
  · exact h.commit.statements

theorem runs {s' : Scanner} {cs rest : List Char} (hrun : Runs s cs s' rest)
    (h : Continues earlier s t) : ∃ t', Runs t cs t' rest ∧ Continues earlier s' t' := by
  induction hrun generalizing t with
  | refl s cs => exact ⟨t, .refl t cs, h⟩
  | @step s s' c cs rest _ ih =>
    obtain ⟨hrest, hnext⟩ := h.step c cs
    obtain ⟨t', hrun, hend⟩ := ih hnext
    exact ⟨t', .step (by rwa [hrest]), hend⟩

end Continues
end Scanner
end Script
end SqlBatch
