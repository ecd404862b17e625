import SqlBatch.Proofs.Script.Contiguous
import SqlBatch.Proofs.Script.Ready

/-! The text of a statement glued to its delimiter, a line feed behind them. A comment or a
directive in it lies within the text, or it takes all of the line that the delimiter is on. -/

namespace SqlBatch.Script

open Text

theorem exists_line (cs : List Char) : (∀ c ∈ cs, isBreak c = false) ∨
    ∃ front b rest, cs = front ++ b :: rest ∧ isBreak b = true ∧
      ∀ c ∈ front, isBreak c = false := by
  have hall := line_append cs
  have hfront : ∀ c ∈ (line cs).1, isBreak c = false := fun _ hc => not_isBreak_of_mem_line hc
  cases hrest : (line cs).2 with
  | nil =>
    rw [hrest, List.append_nil] at hall
    exact Or.inl (hall ▸ hfront)
  | cons b rest =>
    rw [hrest] at hall
    exact Or.inr ⟨_, b, rest, hall.symm, isBreak_head_line_rest (by rw [hrest]; rfl), hfront⟩

theorem Directive.read?_line {front rest : List Char} {b : Char} {d : Directive}
    (h : read? (front ++ b :: rest) = some d) (hb : isBreak b = true)
    (hfront : ∀ c ∈ front, isBreak c = false) : ∃ word behind, front = word ++ behind ∧
      word.map Char.toLower = keyword ∧ behind.head?.all isBlank = true ∧
      d.token = trim behind ∧ d.rest = dropTerminator (b :: rest) := by
  obtain ⟨word, after, htext, hword, hblank, htoken, hrest⟩ := read?_eq_some.1 h
  obtain ⟨behind, hbehind, hafter⟩ : ∃ behind, front = word ++ behind ∧
      after = behind ++ b :: rest := by
    rcases List.append_eq_append_iff.1 htext with ⟨more, hmore, hafter⟩ | ⟨more, hmore, hafter⟩
    · cases more with
      | nil => exact ⟨[], by simpa using hmore.symm, by simpa using hafter.symm⟩
      | cons e more =>
        obtain ⟨rfl, -⟩ : b = e ∧ _ := List.cons.inj hafter
        rw [not_isBreak_of_mem_word hword (by rw [hmore]; simp)] at hb
        exact Bool.noConfusion hb
    · exact ⟨more, hmore, hafter⟩
  have hline : line after = (behind, b :: rest) := by
    rw [hafter]
    refine line_append_of_forall (fun c hc => hfront c ?_) fun c hc => ?_
    · rw [hbehind]
      exact List.mem_append_right _ hc
    · rwa [← Option.some.inj hc]
  rw [hline] at htoken hrest
  refine ⟨word, behind, hbehind, hword, ?_, htoken, hrest⟩
  cases behind with
  | nil => rfl
  | cons e behind => rwa [hafter] at hblank

section
variable {front cs sql delimiter rest : List Char} {c b : Char}

theorem exists_cut {text : List Char} (htext : front ++ c :: cs = text ++ '\n' :: rest)
    (hlength : rest.length ≤ cs.length) (hc : c ≠ '\n') :
    ∃ behind, text = front ++ c :: behind ∧ cs = behind ++ '\n' :: rest := by
  rcases List.append_eq_append_iff.1 htext with ⟨more, hmore, hcs⟩ | ⟨more, hmore, hcs⟩
  · cases more with
    | nil => exact absurd (List.cons.inj hcs).1 hc
    | cons e more =>
      obtain ⟨rfl, rfl⟩ := List.cons.inj hcs
      exact ⟨more, hmore, rfl⟩
  · cases more with
    | nil => exact absurd (List.cons.inj hcs).1.symm hc
    | cons e more =>
      have hlong : rest.length = (more ++ c :: cs).length :=
        congrArg List.length (List.cons.inj hcs).2
      rw [List.length_append, List.length_cons] at hlong
      omega

theorem exists_break {behind : List Char} (hdelimiter : ∀ e ∈ delimiter, isBreak e = false)
    (hb : isBreak b = true) (htext : sql ++ delimiter = front ++ b :: behind) :
    ∃ more, sql = front ++ b :: more ∧ behind = more ++ delimiter := by
  rcases List.append_eq_append_iff.1 htext with ⟨more, hmore, hcs⟩ | ⟨more, hmore, hcs⟩
  · rw [hdelimiter b (by rw [hcs]; simp)] at hb
    exact Bool.noConfusion hb
  · cases more with
    | nil =>
      rw [hdelimiter b (by rw [← List.nil_append delimiter, ← hcs]; simp)] at hb
      exact Bool.noConfusion hb
    | cons e more =>
      obtain ⟨rfl, hbehind⟩ := List.cons.inj hcs
      exact ⟨more, hmore, hbehind⟩

theorem startsLineComment_cases (hdelimiter : ∀ e ∈ delimiter, isBreak e = false)
    (htext : front ++ c :: cs = sql ++ (delimiter ++ '\n' :: rest))
    (hlength : rest.length ≤ cs.length) (hline : Scanner.startsLineComment c cs = true) :
    (∃ behind, sql = front ++ c :: behind ∧ Scanner.startsLineComment c behind = true) ∨
      (line cs).2 = '\n' :: rest := by
  have hc : c ≠ '\n' := by
    obtain ⟨-, -, -, ⟨rfl, -⟩ | ⟨rfl, -⟩⟩ := Scanner.startsLineComment_eq_true.1 hline <;> decide
  rw [← List.append_assoc] at htext
  obtain ⟨behind, hbehind, rfl⟩ := exists_cut htext hlength hc
  rcases exists_line behind with hone | ⟨first, b, more, rfl, hb, hfirst⟩
  · refine Or.inr ?_
    rw [line_append_of_forall hone]
    rintro e ⟨⟩
    rfl
  · rw [← List.cons_append, ← List.append_assoc] at hbehind
    obtain ⟨more, hsql, rfl⟩ := exists_break hdelimiter hb hbehind
    refine Or.inl ⟨first ++ b :: more, by rw [hsql]; simp, ?_⟩
    -- the marker ends in front of the line break
    have hends : EndsLook [] b := ⟨Or.inl hb, List.not_mem_nil⟩
    have hlike : ReadsLike [] (first ++ b :: more)
        ((first ++ b :: (more ++ delimiter)) ++ '\n' :: rest) := by
      rw [List.append_assoc, List.cons_append]
      exact (ReadsLike.of_front ⟨_, rfl⟩).trans (.append hends first _)
    exact hlike.startsLineComment hline

end
end SqlBatch.Script
