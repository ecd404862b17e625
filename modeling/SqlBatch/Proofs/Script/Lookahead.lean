import SqlBatch.Proofs.Script.Exit

/-! How far a step looks ahead. It looks for the second character of a comment marker, for the
keyword and for the rest of the delimiter, so never for a line break or a semicolon, unless the
delimiter has one behind its first character. Text that differs only from such a character on is
read alike. -/

namespace SqlBatch.Script

open Text

def EndsLook (d : List Char) (c : Char) : Prop := (isBreak c = true ∨ c = ';') ∧ c ∉ d.tail

/-- Whatever a step under the delimiter `d` looks for and finds in front of `u`, it finds in front
of `cs` too. -/
def ReadsLike (d cs u : List Char) : Prop := ∀ q, q <+: u → (∀ c ∈ q, ¬EndsLook d c) → q <+: cs

namespace ReadsLike
variable {d cs u v : List Char}

theorem of_front (h : u <+: cs) : ReadsLike d cs u := fun _ hq _ => hq.trans h

theorem trans (h : ReadsLike d cs u) (h' : ReadsLike d u v) : ReadsLike d cs v :=
  fun q hq hlook => h q (h' q hq hlook) hlook

theorem append {b : Char} (hb : EndsLook d b) (text rest : List Char) :
    ReadsLike d text (text ++ b :: rest) := by
  intro q hq hlook
  have hfront : text ++ [b] <+: text ++ b :: rest := ⟨rest, by simp⟩
  rcases List.prefix_or_prefix_of_prefix hq hfront with h | h
  · rcases List.prefix_concat_iff.1 h with rfl | h
    · exact absurd hb (hlook b (by simp))
    · exact h
  · exact absurd hb (hlook b (h.subset (by simp)))

theorem of_endsLook {b : Char} (hb : EndsLook d b) (rest : List Char) :
    ReadsLike d cs (b :: rest) :=
  (of_front List.nil_prefix).trans (append hb [] rest)

theorem cons (h : ReadsLike d cs u) (c : Char) : ReadsLike d (c :: cs) (c :: u) := by
  intro q hq hlook
  cases q with
  | nil => exact List.nil_prefix
  | cons e q =>
    obtain ⟨rfl, htail⟩ := List.cons_prefix_cons.1 hq
    exact List.cons_prefix_cons.2
      ⟨rfl, h q htail fun c hc => hlook c (List.mem_cons_of_mem _ hc)⟩

theorem append_left (h : ReadsLike d cs u) (front : List Char) :
    ReadsLike d (front ++ cs) (front ++ u) := by
  induction front with
  | nil => exact h
  | cons c front ih => exact ih.cons c

theorem head? (h : ReadsLike d cs u) {c : Char} (hc : ¬EndsLook d c) (hu : u.head? = some c) :
    cs.head? = some c := by
  obtain ⟨rest, rfl⟩ := List.head?_eq_some_iff.1 hu
  obtain ⟨behind, rfl⟩ := h [c] ⟨rest, rfl⟩ (by simpa using hc)
  rfl

theorem not_endsLook {c : Char} (h : isBreak c = false) (hsemicolon : c ≠ ';') :
    ¬EndsLook d c := by
  simp [EndsLook, h, hsemicolon]

theorem not_endsLook_of_isSpaceOrTab {c : Char} (h : isSpaceOrTab c = true) : ¬EndsLook d c := by
  simp only [isSpaceOrTab, Bool.or_eq_true, decide_eq_true_eq] at h
  rcases h with rfl | rfl <;> exact not_endsLook (by decide) (by decide)

theorem startsLineComment (h : ReadsLike d cs u) {c : Char}
    (hu : Scanner.startsLineComment c u = true) : Scanner.startsLineComment c cs = true := by
  obtain ⟨e, rest, he, ⟨rfl, rfl⟩ | ⟨rfl, rfl⟩⟩ := Scanner.startsLineComment_eq_true.1 hu
  · obtain ⟨behind, rfl⟩ := h [e] ⟨rest, rfl⟩ (by simpa using not_endsLook_of_isSpaceOrTab he)
    exact he
  · have hhyphen : ¬EndsLook d '-' := not_endsLook (by decide) (by decide)
    obtain ⟨behind, rfl⟩ := h ['-', e] ⟨rest, rfl⟩
      (by simpa [hhyphen] using not_endsLook_of_isSpaceOrTab he)
    exact he

theorem bare (h : ReadsLike d cs u) {c : Char} (hcs : Scanner.Bare c cs) : Scanner.Bare c u := by
  refine ⟨hcs.escape, ?_, ?_, hcs.quote⟩
  · rintro ⟨hc, hu⟩
    exact hcs.block ⟨hc, h.head? (not_endsLook (by decide) (by decide)) hu⟩
  · cases hu : Scanner.startsLineComment c u with
    | false => rfl
    | true => rw [← hcs.line, h.startsLineComment hu]

end ReadsLike

namespace Scanner
variable {s : Scanner} {c : Char} {cs u : List Char}

theorem afterDelimiter?_eq_some {rest : List Char} : s.afterDelimiter? c cs = some rest ↔
    s.delimiter ≠ [] ∧ c :: cs = s.delimiter ++ rest := by
  unfold afterDelimiter?
  cases s.delimiter with
  | nil => simp
  | cons d ds =>
    by_cases h : d = c
    · simp [h, after?_eq_some]
    · simp [h, Ne.symm h]

theorem afterDelimiter?_of_readsLike (h : ReadsLike s.delimiter cs u)
    (hcs : s.afterDelimiter? c cs = none) : s.afterDelimiter? c u = none := by
  cases hu : s.afterDelimiter? c u with
  | none => rfl
  | some rest =>
    exfalso
    obtain ⟨hne, hfront⟩ := afterDelimiter?_eq_some.1 hu
    obtain ⟨d, ds, hd⟩ := List.exists_cons_of_ne_nil hne
    rw [hd, List.cons_append, List.cons.injEq] at hfront
    obtain ⟨behind, hbehind⟩ := h ds ⟨rest, hfront.2.symm⟩ fun x hx hends => by
      rw [hd] at hends
      exact hends.2 hx
    have hfound : s.afterDelimiter? c cs = some behind :=
      afterDelimiter?_eq_some.2 ⟨hne, by rw [hd, ← hbehind, hfront.1, List.cons_append]⟩
    simp [hcs] at hfound

theorem length_line_of_startsLineComment (h : startsLineComment c cs = true) :
    (line cs).2.length < cs.length := by
  obtain ⟨b, rest, hcs, hb⟩ : ∃ b rest, cs = b :: rest ∧ isBreak b = false := by
    obtain ⟨e, rest, he, ⟨rfl, rfl⟩ | ⟨rfl, rfl⟩⟩ := startsLineComment_eq_true.1 h
    · exact ⟨e, rest, rfl, not_isBreak_of_isSpaceOrTab he⟩
    · exact ⟨'-', e :: rest, rfl, by decide⟩
  have hrest := line_rest_length_le rest
  have hline : (line cs).2 = (line rest).2 := by simp [line, hcs, hb]
  rw [hline, hcs, List.length_cons]
  omega

theorem startsLineComment_append (h : startsLineComment c cs = true) (rest : List Char) :
    startsLineComment c (cs ++ rest) = true := by
  have hlike : ReadsLike [] (cs ++ rest) cs := .of_front (List.prefix_append cs rest)
  exact hlike.startsLineComment h

theorem Stop.suffix {s' : Scanner} {rest : List Char} (h : Stop s c cs s' rest) :
    rest <:+ c :: cs := by
  cases h with
  | comment =>
    have hline : (line cs).2 <:+ cs := ⟨(line cs).1, line_append cs⟩
    exact hline.trans (List.suffix_cons c cs)
  | directive _ hd =>
    obtain ⟨text, htext, -⟩ := Directive.exists_text (read?_of_directive? hd)
    exact ⟨text, htext.symm⟩
  | close _ _ _ hafter =>
    obtain ⟨-, hfront⟩ := afterDelimiter?_eq_some.1 hafter
    exact ⟨s.delimiter, hfront.symm⟩

theorem bare_of_step (hplain : s.context = .plain) (hescape : c ≠ '\\')
    (hquote : isQuote c = false) (hkeep : (s.step c cs).2 = cs) : Bare c cs := by
  refine ⟨hescape, ?_, ?_, hquote⟩
  · rintro ⟨rfl, hhead⟩
    obtain ⟨rest, rfl⟩ := List.head?_eq_some_iff.1 hhead
    exact absurd (congrArg List.length hkeep) (by simp [step, hplain, stepPlain])
  · cases hline : startsLineComment c cs with
    | false => rfl
    | true =>
      rw [step_of_startsLineComment hplain hline] at hkeep
      exact absurd (congrArg List.length hkeep) (length_line_of_startsLineComment hline).ne

theorem stepBare_eq_of_readsLike (h : ReadsLike s.delimiter cs u)
    (hdirective : s.directive? (c :: u) = none) (hkeep : (s.stepBare c cs).2 = cs) :
    s.stepBare c u = ((s.stepBare c cs).1, u) := by
  unfold stepBare at hkeep ⊢
  rw [hdirective]
  cases hd : s.directive? (c :: cs) with
  | some d =>
    simp only [hd] at hkeep
    have hlength := Directive.read?_length (read?_of_directive? hd)
    rw [hkeep, List.length_cons] at hlength
    omega
  | none =>
    simp only [hd] at hkeep ⊢
    cases hafter : s.afterDelimiter? c cs with
    | none => rw [afterDelimiter?_of_readsLike h hafter]
    | some rest =>
      -- a delimiter of one character
      simp only [hafter] at hkeep ⊢
      obtain ⟨hne, hfront⟩ := afterDelimiter?_eq_some.1 hafter
      rw [hkeep, ← List.singleton_append, List.append_cancel_right_eq] at hfront
      rw [afterDelimiter?_eq_some.2 ⟨hne, by rw [← hfront, List.singleton_append]⟩]

theorem step_of_quote (hplain : s.context = .plain) (hquote : isQuote c = true)
    (cs : List Char) : s.step c cs = ({ s.keep c with context := .literal c }, cs) := by
  simp only [isQuote, Bool.or_eq_true, decide_eq_true_eq] at hquote
  rcases hquote with (rfl | rfl) | rfl <;>
    simp [step, hplain, stepPlain, startsLineComment, isQuote]

theorem step_eq_of_readsLike (h : ReadsLike s.delimiter cs u)
    (hdirective : s.context = .plain → s.directive? (c :: u) = none)
    (hkeep : (s.step c cs).2 = cs) : s.step c u = ((s.step c cs).1, u) := by
  cases hcontext : s.context with
  | plain =>
    by_cases hescape : c = '\\'
    · simp [step, hcontext, stepPlain, hescape]
    cases hquote : isQuote c with
    | true => rw [step_of_quote hcontext hquote, step_of_quote hcontext hquote]
    | false =>
      have hbare := bare_of_step hcontext hescape hquote hkeep
      rw [step_of_bare hcontext hbare] at hkeep ⊢
      rw [step_of_bare hcontext (h.bare hbare)]
      exact stepBare_eq_of_readsLike h (hdirective hcontext) hkeep
  | escape inside => simp only [step, hcontext]
  | literal quote => simp only [step, hcontext]
  | comment enclosing =>
    have hmark : ∀ x y, x = '/' ∧ y = '*' ∨ x = '*' ∧ y = '/' →
        ¬(c = x ∧ cs.head? = some y) ∧ ¬(c = x ∧ u.head? = some y) := by
      intro x y hxy
      have hcs : ¬(c = x ∧ cs.head? = some y) := by
        rintro ⟨rfl, hhead⟩
        obtain ⟨rest, rfl⟩ := List.head?_eq_some_iff.1 hhead
        rcases hxy with ⟨rfl, rfl⟩ | ⟨rfl, rfl⟩ <;>
          exact absurd (congrArg List.length hkeep) (by simp [step, hcontext, stepComment])
      refine ⟨hcs, fun hu => hcs ⟨hu.1, h.head? ?_ hu.2⟩⟩
      rcases hxy with ⟨rfl, rfl⟩ | ⟨rfl, rfl⟩ <;>
        exact ReadsLike.not_endsLook (by decide) (by decide)
    obtain ⟨hopen, hopen'⟩ := hmark '/' '*' (Or.inl ⟨rfl, rfl⟩)
    obtain ⟨hclose, hclose'⟩ := hmark '*' '/' (Or.inr ⟨rfl, rfl⟩)
    simp only [step, hcontext, stepComment, if_neg hopen, if_neg hclose, if_neg hopen',
      if_neg hclose']

end Scanner
end SqlBatch.Script
