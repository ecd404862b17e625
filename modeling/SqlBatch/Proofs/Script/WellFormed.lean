import SqlBatch.Proofs.Script.Ready

/-! What every statement of a script has in common. Its delimiter could be named by a directive
line, its text does not start with a blank, and a blank at its end is an escaped one. -/

namespace SqlBatch.Script

open Text

def EndsGuarded (sql : List Char) : Prop :=
  ∀ front c, sql = front ++ [c] → isBlank c = true → ∃ front', front = front' ++ ['\\']

structure WellFormed (x : Statement) : Prop where
  nameable : Nameable x.delimiter.toList
  starts : ∀ c ∈ x.sql.toList.head?, isBlank c = false
  ends : EndsGuarded x.sql.toList

theorem nameable_token {cs : List Char} {d : Directive} (h : Directive.read? cs = some d)
    (hne : d.token ≠ []) : Nameable d.token := by
  obtain ⟨-, after, -, -, -, htoken, -⟩ := Directive.read?_eq_some.1 h
  refine ⟨hne, by rw [htoken, trim_trim], fun c hc => ?_⟩
  rw [htoken] at hc
  obtain ⟨lead, -, hlead⟩ := exists_append_trimStart (line after).1
  obtain ⟨tail, -, htail⟩ := exists_trimEnd_append (trimStart (line after).1)
  have hmem : c ∈ (line after).1 := by
    rw [hlead, htail]
    exact List.mem_append_right _ (List.mem_append_left _ hc)
  exact not_isBreak_of_mem_line hmem

namespace Kept

def IsGuarded (k : Kept) : Prop := k.guarded = [] ∨ ∃ front c, k.guarded = front ++ ['\\', c]

theorem IsGuarded.exists_guarded {k : Kept} (h : k.IsGuarded) {front : List Char} {c : Char}
    (htrimmed : k.trimmed = front ++ [c]) (hc : isBlank c = true) :
    ∃ lead, k.guarded = lead ++ ['\\', c] ∧ front = trimStart lead ++ ['\\'] := by
  rw [trimmed_eq] at htrimmed
  cases hloose : trimEnd k.loose using List.reverseRecOn with
  | nil =>
    rw [hloose, List.append_nil] at htrimmed
    rcases h with hnone | ⟨lead, d, hguarded⟩
    · rw [hnone] at htrimmed
      exact absurd htrimmed (by simp [trimStart])
    · rw [hguarded, trimStart_append_cons _ fun _ => by decide] at htrimmed
      have hsplit : trimStart lead ++ ['\\', d] = (trimStart lead ++ ['\\']) ++ [d] := by simp
      rw [hsplit] at htrimmed
      obtain ⟨hfront, hlast⟩ := List.append_inj' htrimmed rfl
      rw [List.cons.injEq] at hlast
      exact ⟨lead, by rw [hguarded, hlast.1], hfront.symm⟩
  | append_singleton body e _ =>
    exfalso
    have he := not_isBlank_last_trimEnd hloose
    rw [hloose, ← List.append_assoc, trimStart_append_cons _ fun _ => he] at htrimmed
    have hlast := (List.append_inj' htrimmed rfl).2
    rw [List.cons.injEq] at hlast
    rw [hlast.1, hc] at he
    exact Bool.noConfusion he

theorem IsGuarded.ends {k : Kept} (h : k.IsGuarded) {front : List Char} {c : Char}
    (htrimmed : k.trimmed = front ++ [c]) (hc : isBlank c = true) :
    ∃ front', front = front' ++ ['\\'] := by
  obtain ⟨lead, -, hfront⟩ := h.exists_guarded htrimmed hc
  exact ⟨trimStart lead, hfront⟩

end Kept

namespace Scanner

/-- Right after a backslash the kept text ends with it, and the guarded part is as it should be. -/
structure Guards (s : Scanner) : Prop where
  escape : ∀ inside, s.context = .escape inside → ∃ front, s.kept.text = front ++ ['\\']
  guarded : s.kept.IsGuarded

namespace Guards
variable {s : Scanner}

theorem keep (h : Guards s) (c : Char) {context : Context}
    (hcontext : ∀ inside, context = .escape inside → c = '\\') :
    Guards { s.keep c with context := context } := by
  refine ⟨fun inside hinside => ⟨s.kept.text, ?_⟩, ?_⟩
  · rw [← hcontext inside hinside]
    exact (congrArg Kept.text (kept_keep s c)).trans (Kept.text_push _ _)
  · exact (congrArg Kept.IsGuarded (kept_keep s c)).mpr h.guarded

theorem keepMarker (h : Guards s) (first second : Char) {context : Context}
    (hcontext : ∀ inside, context ≠ .escape inside) :
    Guards { s.keepMarker first second with context := context } :=
  ⟨fun inside hinside => absurd hinside (hcontext inside),
    (congrArg Kept.IsGuarded (kept_keepMarker s first second)).mpr h.guarded⟩

theorem stepPlain (h : Guards s) (hplain : s.context = .plain) (c : Char) (cs : List Char) :
    Guards (s.stepPlain c cs).1 := by
  unfold Scanner.stepPlain
  split
  · rename_i hc
    exact h.keep c fun _ _ => hc
  · split
    · exact h.keepMarker '/' '*' (by simp)
    · split
      · exact h
      · split
        · exact h.keep c (by simp)
        · unfold Scanner.stepBare
          split
          · exact ⟨fun inside hinside => absurd (hplain.symm.trans hinside) (by simp), h.guarded⟩
          · split
            · exact ⟨fun inside hinside => absurd (hplain.symm.trans hinside) (by simp), Or.inl rfl⟩
            · exact h.keep c (by simp [hplain])

theorem step (h : Guards s) (c : Char) (cs : List Char) : Guards (s.step c cs).1 := by
  unfold Scanner.step
  split
  · rename_i hplain
    exact h.stepPlain hplain c cs
  · rename_i inside hinside
    obtain ⟨front, hfront⟩ := h.escape inside hinside
    have hresume : ∀ outer, resume inside ≠ .escape outer := by cases inside <;> simp [resume]
    refine ⟨fun outer hescape => absurd hescape (hresume outer), Or.inr ⟨front, c, ?_⟩⟩
    refine (congrArg Kept.guarded (kept_keepEscaped s c)).trans ?_
    rw [Kept.pushGuarded, hfront]
    simp
  · rename_i quote _
    refine h.keep c fun inside hescape => ?_
    by_contra hc
    rw [if_neg hc] at hescape
    split at hescape <;> simp at hescape
  · rename_i enclosing hinside
    unfold stepComment
    split
    · exact h.keepMarker '/' '*' (by simp)
    · split
      · exact h.keepMarker '*' '/' (by cases enclosing <;> simp [leave])
      · exact h.keep c (by simp [hinside])

theorem of_runs {s' : Scanner} {cs rest : List Char} (hrun : Runs s cs s' rest) (h : Guards s) :
    Guards s' := by
  induction hrun with
  | refl => exact h
  | @step s _ c cs _ _ ih => exact ih (h.step c cs)

end Guards

/-- The delimiter in force can be named, and all statements are well formed. -/
structure Sane (s : Scanner) : Prop where
  nameable : Nameable s.delimiter
  guards : Guards s
  statements : ∀ x ∈ s.statements.toList, WellFormed x

namespace Sane
variable {s : Scanner}

theorem commit (h : Sane s) : ∀ x ∈ s.commit.statements.toList, WellFormed x := by
  intro x hx
  rw [statements_commit, Array.toList_push, List.mem_append, List.mem_singleton] at hx
  rcases hx with hx | rfl
  · exact h.statements x hx
  · refine ⟨by rw [String.toList_ofList]; exact h.nameable, ?_, ?_⟩
    · rw [String.toList_ofList]
      exact fun c hc => s.kept.not_isBlank_head_trimmed hc
    · rw [String.toList_ofList]
      exact fun _ _ htrimmed hc => h.guards.guarded.ends htrimmed hc

theorem step (h : Sane s) (c : Char) (cs : List Char) : Sane (s.step c cs).1 := by
  have hguards := h.guards.step c cs
  have hexit := exit_step s c cs
  generalize s.step c cs = next at hexit hguards
  obtain ⟨s', rest⟩ := next
  cases hexit with
  | keep hkeeps =>
    exact ⟨hkeeps.delimiter ▸ h.nameable, hguards, hkeeps.statements ▸ h.statements⟩
  | marker _ _ _ _ hkeeps =>
    exact ⟨hkeeps.delimiter ▸ h.nameable, hguards, hkeeps.statements ▸ h.statements⟩
  | stop hstop =>
    cases hstop with
    | comment => exact h
    | @directive d _ hd =>
      refine ⟨?_, hguards, h.statements⟩
      cases htoken : d.token with
      | nil => exact h.nameable
      | cons e es =>
        rw [← htoken]
        have hname := nameable_token (read?_of_directive? hd) (by simp [htoken])
        simpa [redefine, htoken] using hname
    | close => exact ⟨h.nameable, hguards, h.commit⟩

theorem of_runs {s' : Scanner} {cs rest : List Char} (hrun : Runs s cs s' rest) (h : Sane s) :
    Sane s' := by
  induction hrun with
  | refl => exact h
  | @step s _ c cs _ _ ih => exact ih (h.step c cs)

end Sane

theorem guards_start (delimiter : String) : Guards (start delimiter) := ⟨by simp, Or.inl rfl⟩

theorem sane_start {delimiter : String} (h : Nameable delimiter.toList) : Sane (start delimiter) :=
  ⟨by rwa [start_delimiter h], guards_start delimiter, by simp⟩

end Scanner

theorem wellFormed_of_mem_tokenize {script delimiter : String} (h : Nameable delimiter.toList)
    {x : Statement} (hx : x ∈ tokenize script delimiter) : WellFormed x := by
  have hsane := (Scanner.sane_start h).of_runs (Scanner.runs_scan _ script.toList)
  unfold tokenize Scanner.finish at hx
  split at hx
  · exact hsane.statements x hx
  · exact hsane.commit x hx

end SqlBatch.Script
