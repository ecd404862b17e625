import SqlBatch.Proofs.Script.Weight

/-! Runs that close no statement. Such a run keeps what it reads, or passes over line comments and
directives. Where no directive can stand, only a line break or the end of the script can follow
text that is passed over, so that text kept within one line stands in the script as it is kept. -/

namespace SqlBatch.Script.Scanner

open Text

/-- Steps that close nothing lead from `s` in front of `cs` to `s'` in front of `rest`. The
directives on the way have tokens that satisfy `P`. -/
inductive Quiet (P : List Char → Prop) : Scanner → List Char → Scanner → List Char → Prop where
  | refl (s : Scanner) (cs : List Char) : Quiet P s cs s cs
  | keep {s s₁ s' : Scanner} {c : Char} {cs rest : List Char} (hstep : s.step c cs = (s₁, cs))
      (hkeeps : Keeps s [c] s₁) (h : Quiet P s₁ cs s' rest) : Quiet P s (c :: cs) s' rest
  | marker {s s₁ s' : Scanner} {c d : Char} {cs rest : List Char} (hc : IsMark c) (hd : IsMark d)
      (hstep : ∀ u, s.step c (d :: u) = (s₁, u)) (hkeeps : Keeps s [c, d] s₁)
      (h : Quiet P s₁ cs s' rest) : Quiet P s (c :: d :: cs) s' rest
  | comment {s s' : Scanner} {c : Char} {cs rest : List Char} (hplain : s.context = .plain)
      (hline : startsLineComment c cs = true) (h : Quiet P s (line cs).2 s' rest) :
      Quiet P s (c :: cs) s' rest
  | directive {s s' : Scanner} {c : Char} {cs rest : List Char} {d : Directive}
      (hplain : s.context = .plain) (hd : s.directive? (c :: cs) = some d) (htoken : P d.token)
      (h : Quiet P (s.redefine d.token) d.rest s' rest) : Quiet P s (c :: cs) s' rest

/-- The scan from `s` in front of `cs` first closes a statement at `s'`, in front of `rest`. -/
structure Closes (s : Scanner) (cs : List Char) (s' : Scanner) (rest : List Char) : Prop where
  quiet : Quiet (fun _ => True) s cs s' (s'.delimiter ++ rest)
  plain : s'.context = .plain
  nonempty : s'.delimiter ≠ []
  bare : ∀ c more, s'.delimiter = c :: more → Bare c (more ++ rest)
  directive : s'.directive? (s'.delimiter ++ rest) = none

namespace Quiet
variable {P Q : List Char → Prop} {s s₁ s' : Scanner} {cs cs₁ rest : List Char}

theorem trans (h : Quiet P s cs s₁ cs₁) (h' : Quiet P s₁ cs₁ s' rest) : Quiet P s cs s' rest := by
  induction h with
  | refl => exact h'
  | keep hstep hkeeps _ ih => exact .keep hstep hkeeps (ih h')
  | marker hc hd hstep hkeeps _ ih => exact .marker hc hd hstep hkeeps (ih h')
  | comment hplain hline _ ih => exact .comment hplain hline (ih h')
  | directive hplain hd htoken _ ih => exact .directive hplain hd htoken (ih h')

theorem mono (hPQ : ∀ token, P token → Q token) (h : Quiet P s cs s' rest) :
    Quiet Q s cs s' rest := by
  induction h with
  | refl s cs => exact .refl s cs
  | keep hstep hkeeps _ ih => exact .keep hstep hkeeps ih
  | marker hc hd hstep hkeeps _ ih => exact .marker hc hd hstep hkeeps ih
  | comment hplain hline _ ih => exact .comment hplain hline ih
  | directive hplain hd htoken _ ih => exact .directive hplain hd (hPQ _ htoken) ih

theorem runs (h : Quiet P s cs s' rest) : Runs s cs s' rest := by
  induction h with
  | refl s cs => exact .refl s cs
  | keep hstep _ _ ih => exact .of_step hstep ih
  | marker _ _ hstep _ _ ih => exact .of_step (hstep _) ih
  | comment hplain hline _ ih => exact .of_step (step_of_startsLineComment hplain hline) ih
  | directive hplain hd _ _ ih => exact .of_step (step_of_directive? hplain hd) ih

theorem statements (h : Quiet P s cs s' rest) : s'.statements = s.statements := by
  induction h with
  | refl => rfl
  | keep _ hkeeps _ ih => rw [ih, hkeeps.statements]
  | marker _ _ _ hkeeps _ ih => rw [ih, hkeeps.statements]
  | comment _ _ _ ih => exact ih
  | directive _ _ _ _ ih => exact ih

theorem exists_text (h : Quiet P s cs s' rest) : ∃ more, s'.kept.text = s.kept.text ++ more := by
  induction h with
  | refl => exact ⟨[], (List.append_nil _).symm⟩
  | @keep s s₁ s' c cs rest _ hkeeps _ ih =>
    obtain ⟨more, hmore⟩ := ih
    exact ⟨c :: more, by rw [hmore, hkeeps.text, List.append_assoc, List.singleton_append]⟩
  | @marker s s₁ s' c d cs rest _ _ _ hkeeps _ ih =>
    obtain ⟨more, hmore⟩ := ih
    exact ⟨c :: d :: more, by rw [hmore, hkeeps.text, List.append_assoc]; rfl⟩
  | comment _ _ _ ih => exact ih
  | directive _ _ _ _ ih => exact ih

theorem suffix (h : Quiet P s cs s' rest) : rest <:+ cs := by
  induction h with
  | refl => exact List.suffix_rfl
  | keep _ _ _ ih => exact ih.trans (List.suffix_cons _ _)
  | marker _ _ _ _ _ ih => exact ih.trans ⟨[_, _], rfl⟩
  | comment hplain hline _ ih => exact ih.trans (Stop.comment hplain hline).suffix
  | directive hplain hd _ _ ih => exact ih.trans (Stop.directive hplain hd).suffix

theorem budget (h : Quiet P s cs s' rest) :
    change s.delimiter s'.delimiter + weight s'.kept.text + weight rest ≤
      weight s.kept.text + weight cs := by
  obtain ⟨closed, hclosed, hweight⟩ := h.runs.budget
  rw [h.statements, List.self_eq_append_right] at hclosed
  rw [hclosed] at hweight
  exact hweight

/-- A run that changes the delimiter passes over a directive that names the new one. -/
theorem budget_of_ne (h : Quiet P s cs s' rest) (hne : s.delimiter ≠ s'.delimiter) :
    weight keyword + weight s'.delimiter + weight s'.kept.text + weight rest ≤
      weight s.kept.text + weight cs := by
  have hbudget := h.budget
  rw [change, if_neg hne.symm] at hbudget
  exact hbudget

theorem delimiter_eq (h : Quiet (· = []) s cs s' rest) : s'.delimiter = s.delimiter := by
  induction h with
  | refl => rfl
  | keep _ hkeeps _ ih => rw [ih, hkeeps.delimiter]
  | marker _ _ _ hkeeps _ ih => rw [ih, hkeeps.delimiter]
  | comment _ _ _ ih => exact ih
  | directive _ _ htoken _ ih => rw [ih, htoken]; rfl

/-- What it takes to name a delimiter and the old one again is too much for a light loss. -/
theorem names_nothing (h : Quiet P s cs s' rest) (hsame : s'.delimiter = s.delimiter)
    (hbudget : weight s.kept.text + weight cs <
      weight s'.kept.text + weight rest + (weight keyword + weight s.delimiter)) :
    Quiet (· = []) s cs s' rest := by
  induction h with
  | refl s cs => exact .refl s cs
  | @keep s s₁ s' c cs rest hstep hkeeps _ ih =>
    have hcs := weight_cons c cs
    refine .keep hstep hkeeps (ih (hsame.trans hkeeps.delimiter.symm) ?_)
    rw [hkeeps.text, hkeeps.delimiter, weight_append]
    omega
  | @marker s s₁ s' c d cs rest hc hd hstep hkeeps _ ih =>
    have hcs : weight (c :: d :: cs) = weight [c, d] + weight cs := weight_append [c, d] cs
    refine .marker hc hd hstep hkeeps (ih (hsame.trans hkeeps.delimiter.symm) ?_)
    rw [hkeeps.text, hkeeps.delimiter, weight_append]
    omega
  | comment hplain hline _ ih =>
    have hlt := weight_of_startsLineComment hline
    exact .comment hplain hline (ih hsame (by omega))
  | @directive s s' c cs rest d hplain hd _ hrun ih =>
    have hweight := weight_of_read? (read?_of_directive? hd)
    cases htoken : d.token with
    | nil =>
      have hredefine : (s.redefine d.token).delimiter = s.delimiter := by rw [htoken]; rfl
      refine .directive hplain hd htoken (ih (hsame.trans hredefine.symm) ?_)
      rw [kept_redefine, hredefine]
      omega
    | cons e es =>
      exfalso
      have hrest := hrun.budget
      have hredefine : (s.redefine d.token).delimiter = d.token := by
        rw [redefine, htoken]
        rfl
      rw [hredefine, hsame, kept_redefine] at hrest
      unfold change at hrest
      split at hrest
      · rename_i heq
        rw [heq] at hbudget
        omega
      · omega

end Quiet

section
variable {s s' : Scanner} {c : Char} {cs rest : List Char}

theorem quiet_or_closes (s : Scanner) (cs : List Char) :
    Quiet (fun _ => True) s cs (s.scan cs) [] ∨
      ∃ s' rest, Closes s cs s' rest ∧ s.scan cs = s'.commit.scan rest := by
  fun_induction scan s cs with
  | case1 s => exact Or.inl (.refl s [])
  | case2 s c cs next =>
    rename_i ih
    have hexit := exit_step s c cs
    have hnext : s.step c cs = next := rfl
    clear_value next
    obtain ⟨s₁, cs₁⟩ := next
    simp only [hnext] at hexit ih ⊢
    -- a step that closes nothing goes in front of either run
    have hbefore : (∀ s' rest, Quiet (fun _ => True) s₁ cs₁ s' rest →
        Quiet (fun _ => True) s (c :: cs) s' rest) →
        Quiet (fun _ => True) s (c :: cs) (s₁.scan cs₁) [] ∨
          ∃ s' rest, Closes s (c :: cs) s' rest ∧ s₁.scan cs₁ = s'.commit.scan rest := by
      intro hstep
      rcases ih with hquiet | ⟨s', rest, hcloses, hscan⟩
      · exact Or.inl (hstep _ _ hquiet)
      · exact Or.inr ⟨s', rest, { hcloses with quiet := hstep _ _ hcloses.quiet }, hscan⟩
    cases hexit with
    | keep hkeeps => exact hbefore fun _ _ => .keep hnext hkeeps
    | marker hcs hc hd hstep hkeeps =>
      subst hcs
      exact hbefore fun _ _ => .marker hc hd hstep hkeeps
    | stop hstop =>
      cases hstop with
      | comment hplain hline => exact hbefore fun _ _ => .comment hplain hline
      | directive hplain hd => exact hbefore fun _ _ => .directive hplain hd trivial
      | close hplain hbare hdirective hafter =>
        obtain ⟨hne, hfront⟩ := afterDelimiter?_eq_some.1 hafter
        refine Or.inr ⟨s, cs₁, ⟨?_, hplain, hne, ?_, hfront ▸ hdirective⟩, rfl⟩
        · rw [← hfront]
          exact .refl _ _
        · intro e es hd
          rw [hd, List.cons_append, List.cons.injEq] at hfront
          obtain ⟨rfl, rfl⟩ := hfront
          exact hbare

theorem statements_scan (s : Scanner) (cs : List Char) :
    ∃ closed, (s.scan cs).statements.toList = s.statements.toList ++ closed := by
  obtain ⟨closed, hclosed, -⟩ := (runs_scan s cs).budget
  exact ⟨closed, hclosed⟩

theorem quiet_of_statements (h : (s.scan cs).statements = s.statements) :
    Quiet (fun _ => True) s cs (s.scan cs) [] := by
  rcases quiet_or_closes s cs with hquiet | ⟨s', rest, hcloses, hscan⟩
  · exact hquiet
  · exfalso
    obtain ⟨closed, hclosed⟩ := statements_scan s'.commit rest
    rw [← hscan, h, statements_commit, hcloses.quiet.statements, Array.toList_push] at hclosed
    have hlength := congrArg List.length hclosed
    simp only [List.length_append, List.length_cons, List.length_nil] at hlength
    omega

theorem exists_closes {x : Statement} {xs : List Statement}
    (h : (s.scan cs).statements.toList = s.statements.toList ++ x :: xs) :
    ∃ s' rest, Closes s cs s' rest ∧ s.scan cs = s'.commit.scan rest ∧
      s'.kept.trimmed = x.sql.toList ∧ s'.delimiter = x.delimiter.toList ∧
      (s'.commit.scan rest).statements.toList = s'.commit.statements.toList ++ xs := by
  rcases quiet_or_closes s cs with hquiet | ⟨s', rest, hcloses, hscan⟩
  · rw [hquiet.statements, List.self_eq_append_right] at h
    exact absurd h (List.cons_ne_nil _ _)
  · obtain ⟨closed, hclosed⟩ := statements_scan s'.commit rest
    have hall := hclosed
    rw [← hscan, h, statements_commit, hcloses.quiet.statements, Array.toList_push,
      List.append_assoc, List.append_cancel_left_eq, List.singleton_append,
      List.cons.injEq] at hall
    obtain ⟨hx, rfl⟩ := hall
    refine ⟨s', rest, hcloses, hscan, ?_, ?_, hclosed⟩
    · rw [hx, String.toList_ofList]
    · rw [hx, String.toList_ofList]

end
end SqlBatch.Script.Scanner
