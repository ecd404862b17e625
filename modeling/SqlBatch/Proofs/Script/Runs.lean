import SqlBatch.Proofs.Script.Lookahead

/-! Runs of the scanner. A copying run keeps all that it reads; every scan copies up to the first
place in plain text where a comment, a directive or the delimiter stands, or to the end. -/

namespace SqlBatch.Script.Scanner

open Text

/-- Steps lead from `s` in front of `cs` to `s'` in front of `rest`. -/
inductive Runs : Scanner → List Char → Scanner → List Char → Prop where
  | refl (s : Scanner) (cs : List Char) : Runs s cs s cs
  | step {s s' : Scanner} {c : Char} {cs rest : List Char}
      (h : Runs (s.step c cs).1 (s.step c cs).2 s' rest) : Runs s (c :: cs) s' rest

namespace Runs
variable {s s₁ s' : Scanner} {cs cs₁ rest : List Char}

theorem of_step {c : Char} (hstep : s.step c cs = (s₁, cs₁)) (h : Runs s₁ cs₁ s' rest) :
    Runs s (c :: cs) s' rest :=
  .step (by rw [hstep]; exact h)

theorem trans (h : Runs s cs s₁ cs₁) (h' : Runs s₁ cs₁ s' rest) : Runs s cs s' rest := by
  induction h with
  | refl => exact h'
  | step _ ih => exact .step (ih h')

theorem scan_eq (h : Runs s cs s' rest) : s.scan cs = s'.scan rest := by
  induction h with
  | refl => rfl
  | step _ ih => rw [scan_cons, ih]

theorem length_le (h : Runs s cs s' rest) : rest.length ≤ cs.length := by
  induction h with
  | refl => exact le_rfl
  | @step s s' c cs rest _ ih =>
    have := step_rest_length_le s c cs
    rw [List.length_cons]
    omega

theorem eq_of_refl (h : Runs s cs s' cs) : s' = s := by
  cases h with
  | refl => rfl
  | @step _ _ c cs _ hnext =>
    have hlength := hnext.length_le
    have hstep := step_rest_length_le s c cs
    rw [List.length_cons] at hlength
    omega

end Runs

theorem runs_scan (s : Scanner) (cs : List Char) : Runs s cs (s.scan cs) [] := by
  fun_induction scan s cs with
  | case1 s => exact .refl s []
  | case2 s c cs next =>
    rename_i ih
    exact .step ih

theorem Runs.invariant {P : Scanner → Prop} {s s' : Scanner} {cs rest : List Char}
    (h : Runs s cs s' rest)
    (hstep : ∀ s c cs s' rest, Exit s c cs s' rest → P s → P s') (hs : P s) : P s' := by
  induction h with
  | refl => exact hs
  | step _ ih => exact ih (hstep _ _ _ _ _ (exit_step _ _ _) hs)

def Numbered (s : Scanner) : Prop :=
  s.statements.toList.map Statement.index = List.range' 1 s.statements.size

theorem Numbered.commit {s : Scanner} (h : Numbered s) : Numbered s.commit := by
  unfold Numbered at h ⊢
  rw [statements_commit, Array.toList_push, Array.size_push, List.map_append, h,
    List.range'_concat]
  simp [Nat.add_comm]

theorem Numbered.exit {s s' : Scanner} {c : Char} {cs rest : List Char}
    (hexit : Exit s c cs s' rest) (h : Numbered s) : Numbered s' := by
  cases hexit with
  | keep hkeeps => rwa [Numbered, hkeeps.statements]
  | marker _ _ _ _ hkeeps => rwa [Numbered, hkeeps.statements]
  | stop hstop =>
    cases hstop with
    | comment => exact h
    | directive => exact h
    | close => exact h.commit

theorem numbered_scan (delimiter : String) (cs : List Char) :
    Numbered ((start delimiter).scan cs) :=
  (runs_scan _ cs).invariant (fun _ _ _ _ _ hexit h => h.exit hexit) rfl

theorem map_index_finish (delimiter : String) (cs : List Char) :
    ((start delimiter).scan cs).finish.map Statement.index =
      List.range' 1 ((start delimiter).scan cs).finish.length := by
  have h := numbered_scan delimiter cs
  unfold finish
  split
  · exact h
  · exact h.commit

theorem pairwise_index_finish (delimiter : String) (cs : List Char) :
    ((start delimiter).scan cs).finish.Pairwise (·.index < ·.index) := by
  rw [← List.pairwise_map, map_index_finish]
  exact List.pairwise_lt_range' 1

/-- Steps lead from `s` in front of `text ++ rest` to `s'` in front of `rest` and keep all of
`text`. -/
inductive Copies : Scanner → List Char → Scanner → List Char → Prop where
  | refl (s : Scanner) (rest : List Char) : Copies s [] s rest
  | keep {s s₁ s' : Scanner} {c : Char} {text rest : List Char}
      (hstep : s.step c (text ++ rest) = (s₁, text ++ rest)) (hkeeps : Keeps s [c] s₁)
      (h : Copies s₁ text s' rest) : Copies s (c :: text) s' rest
  | marker {s s₁ s' : Scanner} {c d : Char} {text rest : List Char}
      (hc : IsMark c) (hd : IsMark d) (hstep : ∀ u, s.step c (d :: u) = (s₁, u))
      (hkeeps : Keeps s [c, d] s₁)
      (h : Copies s₁ text s' rest) : Copies s (c :: d :: text) s' rest

namespace Copies
variable {s s' : Scanner} {text rest : List Char}

theorem runs (h : Copies s text s' rest) : Runs s (text ++ rest) s' rest := by
  induction h with
  | refl s rest => exact .refl s rest
  | keep hstep _ _ ih => exact .of_step hstep ih
  | marker _ _ hstep _ _ ih => exact .of_step (hstep _) ih

theorem delimiter (h : Copies s text s' rest) : s'.delimiter = s.delimiter := by
  induction h with
  | refl => rfl
  | keep _ hkeeps _ ih => rw [ih, hkeeps.delimiter]
  | marker _ _ _ hkeeps _ ih => rw [ih, hkeeps.delimiter]

theorem statements (h : Copies s text s' rest) : s'.statements = s.statements := by
  induction h with
  | refl => rfl
  | keep _ hkeeps _ ih => rw [ih, hkeeps.statements]
  | marker _ _ _ hkeeps _ ih => rw [ih, hkeeps.statements]

theorem text_eq (h : Copies s text s' rest) : s'.kept.text = s.kept.text ++ text := by
  induction h with
  | refl => simp
  | keep _ hkeeps _ ih => rw [ih, hkeeps.text, List.append_assoc, List.singleton_append]
  | marker _ _ _ hkeeps _ ih =>
    rw [ih, hkeeps.text, List.append_assoc, List.cons_append, List.singleton_append]

end Copies

theorem directive?_of_step {s s' : Scanner} {c : Char} {cs : List Char}
    (hplain : s.context = .plain) (hstep : s.step c cs = (s', cs)) :
    s.directive? (c :: cs) = none := by
  cases hd : s.directive? (c :: cs) with
  | none => rfl
  | some d =>
    have hlength := Directive.read?_length (read?_of_directive? hd)
    have hrest : d.rest = cs := by
      rw [step_of_directive? hplain hd] at hstep
      exact congrArg Prod.snd hstep
    rw [hrest, List.length_cons] at hlength
    omega

theorem directive?_eq_none {s : Scanner} {cs u : List Char}
    (hread : Directive.read? cs = none → Directive.read? u = none)
    (h : s.directive? cs = none) : s.directive? u = none := by
  unfold directive? at h ⊢
  cases hplace : s.lineStart || s.isBlank with
  | false => cases Directive.read? u <;> simp
  | true =>
    cases hcs : Directive.read? cs with
    | none => rw [hread hcs]
    | some d => simp [hcs, hplace] at h

theorem Copies.in_front_of {s s' : Scanner} {text rest rest' : List Char}
    (h : Copies s text s' rest) (hlike : ReadsLike s.delimiter rest rest')
    (hread : ∀ front, Directive.read? (front ++ rest) = none →
      Directive.read? (front ++ rest') = none) : Copies s text s' rest' := by
  induction h with
  | refl => exact .refl _ _
  | @keep s s₁ s' c text rest hstep hkeeps _ ih =>
    have hstep' := step_eq_of_readsLike (c := c) (hlike.append_left text)
      (fun hplain => directive?_eq_none (hread (c :: text)) (directive?_of_step hplain hstep))
      (by rw [hstep])
    rw [hstep] at hstep'
    exact .keep hstep' hkeeps (ih (hkeeps.delimiter ▸ hlike) hread)
  | marker hc hd hstep hkeeps _ ih =>
    exact .marker hc hd hstep hkeeps (ih (hkeeps.delimiter ▸ hlike) hread)

theorem exists_copies (s : Scanner) (cs : List Char) : ∃ text s' rest, cs = text ++ rest ∧
    Copies s text s' rest ∧ (rest = [] ∨
      ∃ c cs', rest = c :: cs' ∧ Stop s' c cs' (s'.step c cs').1 (s'.step c cs').2) := by
  fun_induction scan s cs with
  | case1 s => exact ⟨[], s, [], rfl, .refl s [], Or.inl rfl⟩
  | case2 s c cs next =>
    rename_i ih
    have hexit := exit_step s c cs
    have hnext : s.step c cs = next := rfl
    clear_value next
    obtain ⟨s₁, cs₁⟩ := next
    obtain ⟨text, s', rest, htext, hcopies, hend⟩ := ih
    simp only [hnext] at hexit htext hcopies
    cases hexit with
    | keep hkeeps =>
      rw [htext] at hnext
      exact ⟨c :: text, s', rest, by rw [htext, List.cons_append], .keep hnext hkeeps hcopies, hend⟩
    | @marker d rest₁ s₁ hcs hc hd hstep hkeeps =>
      refine ⟨c :: d :: text, s', rest, ?_, .marker hc hd hstep hkeeps hcopies, hend⟩
      rw [hcs, htext, List.cons_append, List.cons_append]
    | stop hstop =>
      refine ⟨[], s, c :: cs, rfl, .refl s _, Or.inr ⟨c, cs, rfl, ?_⟩⟩
      rw [hnext]
      exact hstop

end SqlBatch.Script.Scanner
