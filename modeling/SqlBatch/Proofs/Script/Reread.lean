import SqlBatch.Proofs.Script.Echo

/-! Reading the rendered statements of a script that never mentions the keyword. Every statement
that a semicolon closed is faithful. Only the last one, if the script ends inside a literal, a
comment or an escape, goes on in what is written behind it. -/

namespace SqlBatch.Script

open Text

namespace Scanner
variable {s s' : Scanner} {c : Char} {cs rest : List Char}

theorem Echoed.faithful (h : Echoed s cs) (hplain : s.context = .plain) :
    Faithful (String.ofList s.kept.trimmed) Statement.defaultDelimiter := by
  obtain ⟨s₀, hrun, hcontext, hdelimiter, hstatements, htrimmed⟩ := h.trimmed []
  rw [hplain] at hcontext
  rw [h.delimiter] at hdelimiter
  have hbare : Bare ';' [] := ⟨by decide, by decide, by decide, by decide⟩
  have hdirective : s₀.directive? [';'] = none := rfl
  have hafter : s₀.afterDelimiter? ';' [] = some [] :=
    afterDelimiter?_eq_some.2 ⟨by rw [hdelimiter]; decide, by rw [hdelimiter]; rfl⟩
  have hend := hrun.trans (.of_step (step_of_close hcontext hbare hdirective hafter) (.refl _ _))
  have hscan : (start Statement.defaultDelimiter).scan
      (String.ofList s.kept.trimmed ++ Statement.defaultDelimiter).toList = s₀.commit := by
    rw [String.toList_append, String.toList_ofList]
    exact hend.scan_eq.trans (scan_nil _)
  refine ⟨by decide, ?_, ?_⟩
  · rw [hscan, statements_commit, hstatements, htrimmed, hdelimiter, String.ofList_toList]
    rfl
  · rw [hscan, current_eq, kept_commit]
    rfl

def Sound (s : Scanner) : Prop := ∀ x ∈ s.statements.toList,
  Faithful x.sql x.delimiter ∧ x.delimiter = Statement.defaultDelimiter

theorem Echoed.sound_commit (h : Echoed s cs) (hplain : s.context = .plain) (hsound : Sound s) :
    Sound s.commit := by
  intro x hx
  rw [statements_commit, Array.toList_push, List.mem_append, List.mem_singleton] at hx
  rcases hx with hx | rfl
  · exact hsound x hx
  · have hdelimiter : String.ofList s.delimiter = Statement.defaultDelimiter := by
      rw [h.delimiter, String.ofList_toList]
    exact ⟨hdelimiter ▸ h.faithful hplain, hdelimiter⟩

theorem Echoed.sound_step (h : Echoed s (c :: cs)) (hsound : Sound s) :
    Sound (s.step c cs).1 := by
  have hexit := exit_step s c cs
  generalize s.step c cs = next at hexit
  obtain ⟨s₁, rest⟩ := next
  cases hexit with
  | keep hkeeps => rwa [Sound, hkeeps.statements]
  | marker _ _ _ _ hkeeps => rwa [Sound, hkeeps.statements]
  | stop hstop =>
    cases hstop with
    | comment => exact hsound
    | directive => exact hsound
    | close hplain => exact h.sound_commit hplain hsound

theorem Echoed.scan (h : Echoed s cs) (hsound : Sound s) :
    Echoed (s.scan cs) [] ∧ Sound (s.scan cs) := by
  fun_induction Scanner.scan s cs with
  | case1 s => exact ⟨h, hsound⟩
  | case2 s c cs next =>
    rename_i ih
    exact ih h.step (h.sound_step hsound)

end Scanner

namespace Scanner
variable {s s' : Scanner} {c : Char} {cs rest : List Char}

theorem keeps_of_isBlank (hc : Text.isBlank c = true) (hafter : s.afterDelimiter? c cs = none) :
    ∃ s', s.step c cs = (s', cs) ∧ Keeps s [c] s' := by
  have hexit := exit_step s c cs
  generalize s.step c cs = next at hexit ⊢
  obtain ⟨s', rest⟩ := next
  cases hexit with
  | keep hkeeps => exact ⟨s', rfl, hkeeps⟩
  | marker _ hmark => exact absurd rfl (ne_of_isBlank hc hmark.not_isBlank)
  | stop hstop =>
    cases hstop with
    | comment _ hline =>
      rw [(bare_of_isBlank hc cs).line] at hline
      exact Bool.noConfusion hline
    | directive _ hd => simp [directive?_of_isBlank hc] at hd
    | close _ _ _ h => simp [hafter] at h

theorem scan_of_not_plain (h : s.context ≠ .plain)
    (hdelimiter : s.delimiter = Statement.defaultDelimiter.toList) :
    (s.scan [';', '\n']).statements = s.statements ∧ (s.scan [';', '\n']).isBlank = false := by
  obtain ⟨s₁, hstep, hkeeps⟩ : ∃ s₁, s.step ';' ['\n'] = (s₁, ['\n']) ∧ Keeps s [';'] s₁ := by
    have hexit := exit_step s ';' ['\n']
    generalize s.step ';' ['\n'] = next at hexit ⊢
    obtain ⟨s₁, rest⟩ := next
    cases hexit with
    | keep hkeeps => exact ⟨s₁, rfl, hkeeps⟩
    | marker hcs _ hmark =>
      obtain rfl := (List.cons.inj hcs).1
      exact absurd hmark.not_isBlank (by decide)
    | stop hstop => cases hstop <;> contradiction
  have hafter : s₁.afterDelimiter? '\n' [] = none := by
    rw [afterDelimiter?, hkeeps.delimiter, hdelimiter]
    rfl
  obtain ⟨s₂, hstep₂, hkeeps₂⟩ := keeps_of_isBlank (by decide) hafter
  rw [scan_cons, hstep, scan_cons, hstep₂, scan_nil]
  refine ⟨hkeeps₂.statements.trans hkeeps.statements, ?_⟩
  rw [isBlank_eq, hkeeps₂.text, hkeeps.text]
  simp only [allBlank_append, allBlank_cons, allBlank_nil]
  rw [show Text.isBlank ';' = false by decide]
  simp

end Scanner

theorem Scanner.Echoed.length_finish {s : Scanner} (h : Echoed s []) (hplain : s.context ≠ .plain) :
    ((start Statement.defaultDelimiter).scan (s.kept.trimmed ++ [';', '\n'])).finish.length =
      1 := by
  obtain ⟨s₀, hrun, hcontext, hdelimiter, hstatements, -⟩ := h.trimmed ['\n']
  rw [← hcontext] at hplain
  rw [h.delimiter] at hdelimiter
  obtain ⟨hclosed, hblank⟩ := scan_of_not_plain hplain hdelimiter
  rw [hrun.scan_eq, finish, hblank]
  simp [commit, hclosed, hstatements]

/-- Without the keyword, reading and writing change nothing but what was left unfinished. -/
theorem tokenize_render_of_not_mentions (script : String) (h : ¬Mentions script.toList) :
    let first := tokenize script Statement.defaultDelimiter
    let second := tokenize (render first) Statement.defaultDelimiter
    second.length = first.length ∧ second.dropLast = first.dropLast ∧
      (((Scanner.start Statement.defaultDelimiter).scan script.toList).context = .plain →
        second = first) := by
  intro first second
  have hnumbered : first.map Statement.index = List.range' 1 first.length :=
    Scanner.map_index_finish Statement.defaultDelimiter script.toList
  have hsame : (∀ x ∈ first, Faithful x.sql x.delimiter) → second = first :=
    fun hfaithful => Scanner.finish_written hfaithful hnumbered
  have hstart : Scanner.Echoed (Scanner.start Statement.defaultDelimiter) script.toList :=
    .of_closed rfl rfl rfl h
  obtain ⟨hecho, hsound⟩ := hstart.scan (fun x hx => absurd hx List.not_mem_nil)
  have hclosed := Scanner.numbered_scan Statement.defaultDelimiter script.toList
  have hfirst :
      first = ((Scanner.start Statement.defaultDelimiter).scan script.toList).finish := rfl
  generalize (Scanner.start Statement.defaultDelimiter).scan script.toList = s at *
  unfold Scanner.finish at hfirst
  by_cases hplain : s.isBlank = true ∨ s.context = .plain
  · have heq : second = first := by
      refine hsame fun x hx => ?_
      rw [hfirst] at hx
      split at hx
      · exact (hsound x hx).1
      · rename_i hopen
        exact (hecho.sound_commit (hplain.resolve_left hopen) hsound x hx).1
    exact ⟨by rw [heq], by rw [heq], fun _ => heq⟩
  · rw [not_or] at hplain
    have hdelimiter : String.ofList s.delimiter = Statement.defaultDelimiter := by
      rw [hecho.delimiter, String.ofList_toList]
    rw [if_neg hplain.1, Scanner.statements_commit, Array.toList_push, hdelimiter] at hfirst
    have hsecond : second = tokenize (render first) Statement.defaultDelimiter := rfl
    rw [hfirst, tokenize_render_concat (fun x hx => (hsound x hx).1) hclosed _
      (by decide : Nameable Statement.defaultDelimiter.toList), tokenize] at hsecond
    have hlength := hecho.length_finish hplain.2
    have hwritten : (String.ofList s.kept.trimmed ++ Statement.defaultDelimiter ++ "\n").toList =
        s.kept.trimmed ++ [';', '\n'] := by
      simp [Statement.defaultDelimiter]
    rw [hwritten] at hsecond
    obtain ⟨y, hy⟩ := List.length_eq_one_iff.1 hlength
    rw [hy] at hsecond
    refine ⟨?_, ?_, fun h => absurd h hplain.2⟩
    · simp [hsecond, hfirst]
    · simp [hsecond, hfirst]

/-- A comment with a semicolon is dropped, a literal hides one, and the last literal stays open. -/
def unfinishedScript : String := "SELECT 1 -- one;\n; SELECT ';' ;; SELECT 'open"

theorem tokenize_render_unfinishedScript :
    ¬Mentions unfinishedScript.toList ∧
      let first := tokenize unfinishedScript Statement.defaultDelimiter
      let second := tokenize (render first) Statement.defaultDelimiter
      second.length = 4 ∧ second.dropLast = first.dropLast ∧ second ≠ first := by
  have hmentions : ¬Mentions unfinishedScript.toList := by decide +kernel
  obtain ⟨hlength, hlast, -⟩ := tokenize_render_of_not_mentions unfinishedScript hmentions
  exact ⟨hmentions, hlength.trans (by decide +kernel), hlast, by decide +kernel⟩

end SqlBatch.Script
