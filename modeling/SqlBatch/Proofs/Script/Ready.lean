import SqlBatch.Proofs.Script.Continues
import SqlBatch.Script.Render

/-! Between two statements. Where a statement has been closed, a line feed and a directive line lead
to a place that continues the start of a script: only the statements already closed tell them
apart, and the delimiter is the one that the directive names. -/

namespace SqlBatch.Script

open Text

/-- Text that a directive line can name as the delimiter. -/
structure Nameable (d : List Char) : Prop where
  nonempty : d ≠ []
  trimmed : trim d = d
  line : ∀ c ∈ d, isBreak c = false

instance (d : List Char) : Decidable (Nameable d) :=
  decidable_of_iff (d ≠ [] ∧ trim d = d ∧ d.all (!isBreak ·) = true)
    ⟨fun ⟨hnonempty, htrimmed, hline⟩ => ⟨hnonempty, htrimmed, forall_mem_of_all hline⟩,
      fun h => ⟨h.nonempty, h.trimmed, by simpa using h.line⟩⟩

namespace Nameable
variable {d : List Char}

theorem ofList_toList {delimiter : String} (h : Nameable delimiter.toList) :
    delimiter.isEmpty = false := by
  rw [String.isEmpty_eq_false_iff]
  intro hempty
  exact h.nonempty (by rw [hempty]; rfl)

theorem not_isBlank_head (h : Nameable d) {c : Char} (hc : d.head? = some c) :
    isBlank c = false :=
  not_isBlank_head_trim (by rwa [h.trimmed])

end Nameable

theorem read?_directiveLine {delimiter : String} (h : Nameable delimiter.toList)
    (rest : List Char) : Directive.read? ((directiveLine delimiter).toList ++ rest) =
      some ⟨delimiter.toList, rest⟩ := by
  have hline : line (' ' :: delimiter.toList ++ '\n' :: rest) =
      (' ' :: delimiter.toList, '\n' :: rest) := by
    refine line_append_of_forall ?_ ?_
    · intro c hc
      rcases List.mem_cons.1 hc with rfl | hc
      · rfl
      · exact h.line c hc
    · rintro c ⟨⟩
      rfl
  have htrim : trim (' ' :: delimiter.toList) = delimiter.toList := h.trimmed
  refine Directive.read?_eq_some.2 ⟨"DELIMITER".toList, ' ' :: delimiter.toList ++ '\n' :: rest,
    ?_, by decide, rfl, ?_, ?_⟩
  · simp [directiveLine]
  · rw [hline, htrim]
  · rw [hline, dropTerminator_lineFeed]

namespace Scanner

section
variable {earlier : List Statement} {active delimiter : String} {s t : Scanner}

@[simp] theorem start_statements : (start delimiter).statements = #[] := rfl

@[simp] theorem start_kept : (start delimiter).kept = {} := rfl

@[simp] theorem start_context : (start delimiter).context = .plain := rfl

theorem start_delimiter (h : Nameable delimiter.toList) :
    (start delimiter).delimiter = delimiter.toList := by
  simp [start, h.ofList_toList]

theorem Continues.restart (h : Continues earlier s t) (hplain : s.context = .plain)
    (hkept : s.kept = {}) (hdelimiter : s.delimiter = (start delimiter).delimiter) :
    Continues (earlier ++ s.statements.toList.map (Statement.behind earlier.length))
      (start delimiter) t := by
  refine ⟨by rw [h.delimiter, hdelimiter], by rw [h.context, hplain]; rfl, ?_, ?_, Or.inr rfl⟩
  · rw [h.statements, start_statements, List.map_nil, List.append_nil]
  · rw [start_kept, ← hkept]
    exact h.kept

theorem Continues.keep_blank (h : Continues earlier (start active) t) {c : Char}
    (hc : Text.isBlank c = true) : Continues earlier (start active) (t.keep c) := by
  obtain ⟨lead, hlead, hkept⟩ := h.kept
  refine ⟨h.delimiter, h.context, h.statements, ⟨lead ++ [c], by simp [hlead, hc], ?_⟩, Or.inr rfl⟩
  rw [kept_keep, hkept, start_kept]
  simp [Kept.behind, Kept.push]

theorem Continues.lineFeed (hactive : Nameable active.toList)
    (h : Continues earlier (start active) t) (rest : List Char) :
    ∃ t', Runs t ('\n' :: rest) t' rest ∧ Continues earlier (start active) t' := by
  have hblank : Text.isBlank '\n' = true := by decide
  have hafter : t.afterDelimiter? '\n' rest = none := by
    cases hafter : t.afterDelimiter? '\n' rest with
    | none => rfl
    | some behind =>
      obtain ⟨hne, hfront⟩ := afterDelimiter?_eq_some.1 hafter
      rw [h.delimiter, start_delimiter hactive] at hne hfront
      obtain ⟨d, ds, hd⟩ := List.exists_cons_of_ne_nil hne
      have hhead : Text.isBlank d = false := hactive.not_isBlank_head (by rw [hd, List.head?_cons])
      rw [hd, List.cons_append, List.cons.injEq] at hfront
      exact absurd hfront.1 (ne_of_isBlank hblank hhead)
  refine ⟨t.keep '\n', .of_step ?_ (.refl _ _), h.keep_blank hblank⟩
  rw [step_of_bare h.context (bare_of_isBlank hblank rest), Scanner.stepBare,
    directive?_of_isBlank hblank, hafter]

theorem Continues.directiveLine (hdelimiter : Nameable delimiter.toList)
    (h : Continues earlier (start active) t) (rest : List Char) :
    ∃ t', Runs t ((directiveLine delimiter).toList ++ rest) t' rest ∧
      Continues earlier (start delimiter) t' := by
  have hplain : t.context = .plain := h.context
  have hblank : t.isBlank = true := by rw [h.isBlank]; rfl
  have hdirective : t.directive? ((Script.directiveLine delimiter).toList ++ rest) =
      some ⟨delimiter.toList, rest⟩ := by
    rw [directive?, read?_directiveLine hdelimiter]
    simp [hblank]
  obtain ⟨c, cs, hcs⟩ := List.exists_cons_of_ne_nil
    (show (Script.directiveLine delimiter).toList ++ rest ≠ [] by simp [Script.directiveLine])
  rw [hcs] at hdirective ⊢
  refine ⟨t.redefine delimiter.toList, .of_step (step_of_directive? hplain hdirective) (.refl _ _),
    ?_, hplain, h.statements, h.kept, Or.inr rfl⟩
  rw [start_delimiter hdelimiter, Scanner.redefine]
  simp [hdelimiter.nonempty]

end
end Scanner
end SqlBatch.Script
