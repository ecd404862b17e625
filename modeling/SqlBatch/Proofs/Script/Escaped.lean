import SqlBatch.Proofs.Script.Concatenation
import SqlBatch.Proofs.Script.Division

/-! Escaped characters from the script to the statements. A character that the scanner reads as an
escaped one stands, right behind its backslash, in the text of the statement that was in progress;
and a blank at the end of a text is such a character. So trimming takes all blanks at the ends but
the escaped ones. -/

namespace SqlBatch.Script

open Text

/-- The scan of the script comes to `c :: rest` right behind a backslash: `c` is read as an escaped
character, while `text` is kept of the statement behind the first `k`. -/
def ReadsEscaped (script delimiter : String) (k : Nat) (text : List Char) (c : Char)
    (rest : List Char) : Prop :=
  ∃ s inside, Scanner.Runs (Scanner.start delimiter) script.toList s (c :: rest) ∧
    s.context = .escape inside ∧ s.statements.size = k ∧ s.current = text

/-- The text of the statement behind the first `k` starts with no blank, and a blank at its end was
read as an escaped character, with all that stands in front of it kept. -/
structure TrimmedTo (script delimiter : String) (k : Nat) (sql : List Char) : Prop where
  starts : ∀ c ∈ sql.head?, isBlank c = false
  ends : ∀ front c, sql = front ++ [c] → isBlank c = true → ∃ front' text rest,
    ReadsEscaped script delimiter k text c rest ∧ front = trimStart text ∧ front = front' ++ ['\\']

namespace Scanner
variable {s s' : Scanner} {c : Char} {cs rest : List Char}

theorem Runs.along {P : Scanner → List Char → Prop} (hrun : Runs s cs s' rest)
    (hstep : ∀ s₁ c cs₁, Runs s cs s₁ (c :: cs₁) → P s₁ (c :: cs₁) →
      P (s₁.step c cs₁).1 (s₁.step c cs₁).2) (h : P s cs) : P s' rest := by
  induction hrun with
  | refl => exact h
  | @step s s' c cs rest _ ih =>
    apply ih
    · intro s₁ d cs₁ hrun'
      exact hstep s₁ d cs₁ (.step hrun')
    · exact hstep s c cs (.refl s _) h

theorem guarded_step (h : ∀ inside, s.context ≠ .escape inside) (c : Char) (cs : List Char) :
    (s.step c cs).1 = s.commit ∨
      (s.step c cs).1.kept.guarded = s.kept.guarded ∧
        (s.step c cs).1.statements = s.statements := by
  unfold step
  split
  · unfold stepPlain
    split
    · exact Or.inr ⟨rfl, rfl⟩
    · split
      · exact Or.inr ⟨rfl, rfl⟩
      · split
        · exact Or.inr ⟨rfl, rfl⟩
        · split
          · exact Or.inr ⟨rfl, rfl⟩
          · unfold stepBare
            split
            · exact Or.inr ⟨rfl, rfl⟩
            · split
              · exact Or.inl rfl
              · exact Or.inr ⟨rfl, rfl⟩
  · rename_i inside hinside
    exact absurd hinside (h inside)
  · exact Or.inr ⟨rfl, rfl⟩
  · unfold stepComment
    split
    · exact Or.inr ⟨rfl, rfl⟩
    · split <;> exact Or.inr ⟨rfl, rfl⟩

theorem step_of_escape {inside : Option Char} (h : s.context = .escape inside) (c : Char)
    (cs : List Char) : s.step c cs = ({ s.keepEscaped c with context := resume inside }, cs) := by
  rw [step, h]

/-- The end that is never trimmed was read as an escaped character, here and in every statement
closed before. -/
structure Traced (script delimiter : String) (s : Scanner) : Prop where
  guarded : s.kept.guarded = [] ∨ ∃ text c rest,
    ReadsEscaped script delimiter s.statements.size text c rest ∧ s.kept.guarded = text ++ [c]
  statements : ∀ k x, s.statements.toList[k]? = some x →
    TrimmedTo script delimiter k x.sql.toList

namespace Traced
variable {script delimiter : String}

theorem trimmedTo (h : Traced script delimiter s) (hguards : Guards s) :
    TrimmedTo script delimiter s.statements.size s.kept.trimmed := by
  refine ⟨fun c hc => s.kept.not_isBlank_head_trimmed hc, ?_⟩
  intro front c htrimmed hc
  obtain ⟨lead, hguarded, hfront⟩ := hguards.guarded.exists_guarded htrimmed hc
  rcases h.guarded with hnone | ⟨text, d, rest, hread, hsome⟩
  · rw [hnone] at hguarded
    simp at hguarded
  · have hsplit : text ++ [d] = (lead ++ ['\\']) ++ [c] := by
      rw [← hsome, hguarded]
      simp
    obtain ⟨htext, hd⟩ := List.append_inj' hsplit rfl
    rw [List.cons.injEq] at hd
    refine ⟨trimStart lead, text, rest, hd.1 ▸ hread, ?_, hfront⟩
    rw [hfront, htext, trimStart_append_cons _ fun _ => by decide]

theorem commit (h : Traced script delimiter s) (hguards : Guards s) :
    Traced script delimiter s.commit := by
  refine ⟨Or.inl rfl, fun k x hx => ?_⟩
  rw [statements_commit, Array.toList_push] at hx
  rcases Nat.lt_trichotomy k s.statements.toList.length with hlt | heq | hgt
  · rw [List.getElem?_append_left hlt] at hx
    exact h.statements k x hx
  · rw [heq, List.getElem?_concat_length] at hx
    rw [heq, ← Option.some.inj hx, String.toList_ofList]
    exact h.trimmedTo hguards
  · rw [List.getElem?_eq_none (by rw [List.length_append, List.length_singleton]; omega)] at hx
    contradiction

theorem step (h : Traced script delimiter s) (hguards : Guards s)
    (hrun : Runs (start delimiter) script.toList s (c :: cs)) :
    Traced script delimiter (s.step c cs).1 := by
  by_cases hcontext : ∃ inside, s.context = .escape inside
  · obtain ⟨inside, hinside⟩ := hcontext
    have hread : ReadsEscaped script delimiter s.statements.size s.kept.text c cs :=
      ⟨s, inside, hrun, hinside, rfl, s.current_eq⟩
    rw [step_of_escape hinside]
    refine ⟨Or.inr ⟨s.kept.text, c, cs, hread, ?_⟩, h.statements⟩
    exact congrArg Kept.guarded (kept_keepEscaped s c)
  · have hno : ∀ inside, s.context ≠ .escape inside := fun inside hinside =>
      hcontext ⟨inside, hinside⟩
    rcases guarded_step hno c cs with hcommit | ⟨hguarded, hstatements⟩
    · rw [hcommit]
      exact h.commit hguards
    · refine ⟨?_, ?_⟩
      · rw [hguarded, hstatements]
        exact h.guarded
      · rw [hstatements]
        exact h.statements

end Traced

theorem traced_of_runs {script delimiter : String}
    (hrun : Runs (start delimiter) script.toList s rest) : Traced script delimiter s := by
  have hstart : Traced script delimiter (start delimiter) := ⟨Or.inl rfl, by simp⟩
  refine hrun.along (P := fun s _ => Traced script delimiter s) ?_ hstart
  intro s₁ c cs₁ hrun' h
  exact h.step ((guards_start delimiter).of_runs hrun') hrun'

/-- `lead`, a backslash and `c` are kept for good of the statement behind the first `k`. -/
def Holds (k : Nat) (lead : List Char) (c : Char) (s : Scanner) : Prop :=
  (s.statements.size = k ∧ ∃ more, s.kept.guarded = lead ++ '\\' :: c :: more) ∨
    ∃ x behind, s.statements.toList[k]? = some x ∧
      x.sql.toList = trimStart lead ++ '\\' :: c :: behind

namespace Holds
variable {k : Nat} {lead : List Char} {e : Char}

theorem commit (h : Holds k lead e s) : ∃ x behind, s.commit.statements.toList[k]? = some x ∧
    x.sql.toList = trimStart lead ++ '\\' :: e :: behind := by
  rw [statements_commit, Array.toList_push]
  rcases h with ⟨hsize, more, hguarded⟩ | ⟨x, behind, hx, hsql⟩
  · have hlength : k = s.statements.toList.length := by rw [← hsize, Array.length_toList]
    refine ⟨_, more ++ trimEnd s.kept.loose, by rw [hlength, List.getElem?_concat_length], ?_⟩
    rw [String.toList_ofList, Kept.trimmed_eq, hguarded, List.append_assoc, List.cons_append,
      List.cons_append, trimStart_append_cons _ fun _ => by decide]
  · have hlt : k < s.statements.toList.length := (List.getElem?_eq_some_iff.1 hx).1
    exact ⟨x, behind, by rw [List.getElem?_append_left hlt, hx], hsql⟩

theorem keeps {text : List Char} (h : Holds k lead e s) (hkeeps : Keeps s text s') :
    Holds k lead e s' := by
  rcases h with ⟨hsize, more, hguarded⟩ | hclosed
  · refine Or.inl ⟨by rw [hkeeps.statements, hsize], ?_⟩
    rcases hkeeps.kept with hkept | hkept
    · exact ⟨more, by rw [hkept, Kept.push, hguarded]⟩
    · refine ⟨more ++ s.kept.loose ++ text, ?_⟩
      rw [hkept, Kept.pushGuarded, Kept.text, hguarded]
      simp
  · exact Or.inr (by rwa [hkeeps.statements])

theorem exit (hexit : Exit s c cs s' rest) (h : Holds k lead e s) : Holds k lead e s' := by
  cases hexit with
  | keep hkeeps => exact h.keeps hkeeps
  | marker _ _ _ _ hkeeps => exact h.keeps hkeeps
  | stop hstop =>
    cases hstop with
    | comment => exact h
    | directive => exact h
    | close => exact Or.inr h.commit

theorem finish (h : Holds k lead e s) : ∃ x behind, s.finish[k]? = some x ∧
    x.sql.toList = trimStart lead ++ '\\' :: e :: behind := by
  unfold Scanner.finish
  split
  · rename_i hblank
    rcases h with ⟨-, more, hguarded⟩ | hclosed
    · -- a backslash is no blank
      rw [isBlank_eq, Kept.text, hguarded] at hblank
      have hbackslash : Text.isBlank '\\' = false := rfl
      simp [hbackslash] at hblank
    · exact hclosed
  · exact h.commit

end Holds

theorem suffix_of_escape {script : List Char} {s₀ : Scanner} (hrun : Runs s₀ script s cs)
    (hstart : s₀.context = .plain) {inside : Option Char} (h : s.context = .escape inside) :
    '\\' :: cs <:+ script := by
  have hall : ∀ inside, s.context = .escape inside → '\\' :: cs <:+ script := by
    refine hrun.along
      (P := fun s cs => ∀ inside, s.context = .escape inside → '\\' :: cs <:+ script) ?_ ?_
    · intro s₁ c cs₁ hrun' _ inside hescape
      obtain ⟨rfl, hrest⟩ := step_escape hescape
      rw [hrest]
      exact hrun'.suffix
    · intro inside hescape
      simp [hstart] at hescape
  exact hall inside h

end Scanner

/-- Blanks at the ends of a text are trimmed, but for an escaped one at its end; and every escaped
character is kept, with its backslash and all that is kept in front of them from the first character
that is no blank. -/
theorem tokenize_trims_all_but_escaped (script delimiter : String) :
    (∀ k x, (tokenize script delimiter)[k]? = some x →
      TrimmedTo script delimiter k x.sql.toList) ∧
    ∀ k text c rest, ReadsEscaped script delimiter k text c rest →
      ∃ read lead x behind, script.toList = read ++ '\\' :: c :: rest ∧ text = lead ++ ['\\'] ∧
        (tokenize script delimiter)[k]? = some x ∧
        x.sql.toList = trimStart lead ++ '\\' :: c :: behind := by
  constructor
  · intro k x hx
    have hrun := Scanner.runs_scan (Scanner.start delimiter) script.toList
    have htraced := Scanner.traced_of_runs hrun
    unfold tokenize Scanner.finish at hx
    split at hx
    · exact htraced.statements k x hx
    · exact (htraced.commit ((Scanner.guards_start delimiter).of_runs hrun)).statements k x hx
  · rintro k text c rest ⟨s, inside, hrun, hinside, hsize, htext⟩
    obtain ⟨lead, hlead⟩ := ((Scanner.guards_start delimiter).of_runs hrun).escape inside hinside
    obtain ⟨read, hread⟩ := Scanner.suffix_of_escape hrun rfl hinside
    have hheld : Scanner.Holds k lead c (s.step c rest).1 := by
      rw [Scanner.step_of_escape hinside]
      refine Or.inl ⟨hsize, [], ?_⟩
      refine (congrArg Kept.guarded (Scanner.kept_keepEscaped s c)).trans ?_
      rw [Kept.pushGuarded, hlead]
      simp
    have hend : Scanner.Holds k lead c ((s.step c rest).1.scan (s.step c rest).2) :=
      (Scanner.runs_scan _ _).invariant (fun _ _ _ _ _ hexit h => h.exit hexit) hheld
    obtain ⟨x, behind, hx, hsql⟩ := hend.finish
    refine ⟨read, lead, x, behind, hread.symm, ?_, ?_, hsql⟩
    · rw [← htext, Scanner.current_eq, hlead]
    · rw [tokenize, hrun.scan_eq, Scanner.scan_cons, hx]

example : tokenize "SELECT 1 \\ \t; \n" ";" = [⟨1, "SELECT 1 \\ ", ";"⟩] := by decide +kernel

end SqlBatch.Script
