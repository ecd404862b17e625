import SqlBatch.Proofs.Script.Directive
import SqlBatch.Proofs.Script.Kept

/-! What one step can do. It keeps the character or the comment marker it reads, or it stands in
plain text and passes over a line comment, takes a directive or closes a statement. Nothing else is
known of a step in the proofs about whole scripts. -/

namespace SqlBatch.Script.Scanner

open Text

def lineStartBehind (text : List Char) (before : Bool) : Bool :=
  text.foldl (fun before c => lineStartAfter c before) before

/-- `s'` holds what `s` holds and has kept `text` too. -/
structure Keeps (s : Scanner) (text : List Char) (s' : Scanner) : Prop where
  delimiter : s'.delimiter = s.delimiter
  statements : s'.statements = s.statements
  kept : s'.kept = s.kept.push text ∨ s'.kept = s.kept.pushGuarded text
  lineStart : s'.lineStart = lineStartBehind text s.lineStart

theorem Keeps.text {s s' : Scanner} {cs : List Char} (h : Keeps s cs s') :
    s'.kept.text = s.kept.text ++ cs := by
  rcases h.kept with hkept | hkept
  · rw [hkept, Kept.text_push]
  · rw [hkept, Kept.text_pushGuarded]

theorem startsLineComment_eq_true {c : Char} {cs : List Char} :
    startsLineComment c cs = true ↔ ∃ e rest, isSpaceOrTab e = true ∧
      (c = '#' ∧ cs = e :: rest ∨ c = '-' ∧ cs = '-' :: e :: rest) := by
  constructor
  · intro h
    unfold startsLineComment at h
    split at h
    · exact ⟨_, _, h, Or.inl ⟨rfl, rfl⟩⟩
    · exact ⟨_, _, h, Or.inr ⟨rfl, rfl⟩⟩
    · simp at h
  · rintro ⟨e, rest, he, ⟨rfl, rfl⟩ | ⟨rfl, rfl⟩⟩ <;> exact he

theorem not_isBlank_of_startsLineComment {c : Char} {cs : List Char}
    (h : startsLineComment c cs = true) : Text.isBlank c = false := by
  obtain ⟨-, -, -, ⟨rfl, -⟩ | ⟨rfl, -⟩⟩ := startsLineComment_eq_true.1 h
  · decide
  · decide

/-- At `c :: cs` neither an escape, a comment nor a literal starts. -/
structure Bare (c : Char) (cs : List Char) : Prop where
  escape : c ≠ '\\'
  block : ¬(c = '/' ∧ cs.head? = some '*')
  line : startsLineComment c cs = false
  quote : isQuote c = false

/-- A step over `c :: cs` that keeps nothing. -/
inductive Stop (s : Scanner) (c : Char) (cs : List Char) : Scanner → List Char → Prop where
  | comment (hplain : s.context = .plain) (h : startsLineComment c cs = true) :
      Stop s c cs s (line cs).2
  | directive {d : Directive} (hplain : s.context = .plain) (h : s.directive? (c :: cs) = some d) :
      Stop s c cs (s.redefine d.token) d.rest
  | close {rest : List Char} (hplain : s.context = .plain) (hbare : Bare c cs)
      (hdirective : s.directive? (c :: cs) = none) (h : s.afterDelimiter? c cs = some rest) :
      Stop s c cs s.commit rest

def IsMark (c : Char) : Prop := c = '/' ∨ c = '*'

theorem IsMark.not_isBlank {c : Char} (h : IsMark c) : Text.isBlank c = false := by
  rcases h with rfl | rfl <;> decide

/-- The ways out of a step over `c :: cs`. A comment marker is kept whatever follows it. -/
inductive Exit (s : Scanner) (c : Char) (cs : List Char) : Scanner → List Char → Prop where
  | keep {s' : Scanner} (h : Keeps s [c] s') : Exit s c cs s' cs
  | marker {d : Char} {rest : List Char} {s' : Scanner} (hcs : cs = d :: rest)
      (hc : IsMark c) (hd : IsMark d) (hstep : ∀ u, s.step c (d :: u) = (s', u))
      (h : Keeps s [c, d] s') : Exit s c cs s' rest
  | stop {s' : Scanner} {rest : List Char} (h : Stop s c cs s' rest) : Exit s c cs s' rest

theorem step_of_bare {s : Scanner} {c : Char} {cs : List Char} (hplain : s.context = .plain)
    (h : Bare c cs) : s.step c cs = s.stepBare c cs := by
  simp [step, hplain, stepPlain, h.escape, h.block, h.line, h.quote]

section
variable {s : Scanner} {c : Char} {cs : List Char}

theorem keeps_keep (context : Context) : Keeps s [c] { s.keep c with context := context } :=
  ⟨rfl, rfl, Or.inl (kept_keep s c), rfl⟩

theorem keeps_keepEscaped (context : Context) :
    Keeps s [c] { s.keepEscaped c with context := context } :=
  ⟨rfl, rfl, Or.inr (kept_keepEscaped s c), rfl⟩

theorem keeps_keepMarker {first second : Char} (h : Text.isBlank second = false)
    (context : Context) :
    Keeps s [first, second] { s.keepMarker first second with context := context } :=
  ⟨rfl, rfl, Or.inl (kept_keepMarker s first second), (lineStartAfter_of_not_isBlank h _).symm⟩

theorem exit_stepBare (hplain : s.context = .plain) (hbare : Bare c cs) :
    Exit s c cs (s.stepBare c cs).1 (s.stepBare c cs).2 := by
  unfold stepBare
  split
  · rename_i d hd
    exact .stop (.directive hplain hd)
  · rename_i hd
    split
    · rename_i rest hrest
      exact .stop (.close hplain hbare hd hrest)
    · exact .keep (keeps_keep s.context)

theorem exit_stepPlain (hplain : s.context = .plain) :
    Exit s c cs (s.stepPlain c cs).1 (s.stepPlain c cs).2 := by
  unfold stepPlain
  split
  · exact .keep (keeps_keep _)
  · rename_i hescape
    split
    · rename_i hopen
      obtain ⟨rfl, hhead⟩ := hopen
      obtain ⟨rest, rfl⟩ := List.head?_eq_some_iff.1 hhead
      exact .marker rfl (.inl rfl) (.inr rfl) (fun u => by simp [step, hplain, stepPlain])
        (keeps_keepMarker (by decide) _)
    · rename_i hblock
      split
      · rename_i hcomment
        exact .stop (.comment hplain hcomment)
      · rename_i hcomment
        split
        · exact .keep (keeps_keep _)
        · rename_i hquote
          exact exit_stepBare hplain
            ⟨hescape, hblock, by simpa using hcomment, by simpa using hquote⟩

theorem exit_stepComment {enclosing : Nat} (hinside : s.context = .comment enclosing) :
    Exit s c cs (s.stepComment enclosing c cs).1 (s.stepComment enclosing c cs).2 := by
  unfold stepComment
  split
  · rename_i hopen
    obtain ⟨rfl, hhead⟩ := hopen
    obtain ⟨rest, rfl⟩ := List.head?_eq_some_iff.1 hhead
    exact .marker rfl (.inl rfl) (.inr rfl) (fun u => by simp [step, hinside, stepComment])
      (keeps_keepMarker (by decide) _)
  · split
    · rename_i hclose
      obtain ⟨rfl, hhead⟩ := hclose
      obtain ⟨rest, rfl⟩ := List.head?_eq_some_iff.1 hhead
      exact .marker rfl (.inr rfl) (.inl rfl) (fun u => by simp [step, hinside, stepComment])
        (keeps_keepMarker (by decide) _)
    · exact .keep (keeps_keep s.context)

end

theorem exit_step (s : Scanner) (c : Char) (cs : List Char) :
    Exit s c cs (s.step c cs).1 (s.step c cs).2 := by
  unfold step
  split
  · rename_i hplain
    exact exit_stepPlain hplain
  · exact .keep (keeps_keepEscaped _)
  · exact .keep (keeps_keep _)
  · rename_i hinside
    exact exit_stepComment hinside

theorem stepPlain_escape {s : Scanner} {c : Char} {cs : List Char} {inside : Option Char}
    (hplain : s.context = .plain) (h : (s.stepPlain c cs).1.context = .escape inside) :
    c = '\\' ∧ (s.stepPlain c cs).2 = cs := by
  have hno : s.context ≠ .escape inside := by simp [hplain]
  unfold stepPlain at h ⊢
  split at h
  · rename_i hc
    exact ⟨hc, by rw [if_pos hc]⟩
  · exfalso
    split at h
    · contradiction
    · split at h
      · exact hno h
      · split at h
        · contradiction
        · unfold stepBare at h
          split at h
          · exact hno h
          · split at h <;> exact hno h

theorem step_escape {s : Scanner} {c : Char} {cs : List Char} {inside : Option Char}
    (h : (s.step c cs).1.context = .escape inside) : c = '\\' ∧ (s.step c cs).2 = cs := by
  unfold step at h ⊢
  split at h
  · rename_i hplain
    exact stepPlain_escape hplain h
  · rename_i outer _
    cases outer <;> contradiction
  · refine ⟨?_, rfl⟩
    by_contra hc
    simp only [stepLiteral, if_neg hc] at h
    split at h <;> contradiction
  · rename_i enclosing hinside
    exfalso
    unfold stepComment at h
    split at h
    · contradiction
    · split at h
      · cases enclosing <;> contradiction
      · exact absurd (hinside.symm.trans h) (by simp)

theorem step_of_startsLineComment {s : Scanner} {c : Char} {cs : List Char}
    (hplain : s.context = .plain) (h : startsLineComment c cs = true) :
    s.step c cs = (s, (line cs).2) := by
  have hc : c ≠ '\\' ∧ c ≠ '/' := by
    constructor <;> rintro rfl <;> simp [startsLineComment] at h
  simp [step, hplain, stepPlain, hc, h]

theorem read?_of_directive? {s : Scanner} {cs : List Char} {d : Directive}
    (h : s.directive? cs = some d) : Directive.read? cs = some d := by
  unfold directive? at h
  split at h
  · rename_i d' hd'
    split at h
    · rw [hd', h]
    · simp at h
  · simp at h

theorem bare_of_read? {c : Char} {cs : List Char} {d : Directive}
    (h : Directive.read? (c :: cs) = some d) : Bare c cs := by
  have hletter := Directive.toLower_head_of_read? h
  refine ⟨?_, ?_, ?_, ?_⟩
  · rintro rfl
    exact absurd hletter (by decide)
  · rintro ⟨rfl, -⟩
    exact absurd hletter (by decide)
  · fun_cases startsLineComment c cs with
    | case1 => exact absurd hletter (by decide)
    | case2 => exact absurd hletter (by decide)
    | case3 => rfl
  · simp only [isQuote, Bool.or_eq_false_iff, decide_eq_false_iff_not]
    refine ⟨⟨?_, ?_⟩, ?_⟩ <;> rintro rfl <;> exact absurd hletter (by decide)

theorem ne_of_isBlank {c d : Char} (hc : Text.isBlank c = true) (hd : Text.isBlank d = false) :
    c ≠ d := by
  rintro rfl
  rw [hc] at hd
  exact Bool.noConfusion hd

theorem not_isBlank_of_isQuote {quote : Char} (h : isQuote quote = true) :
    Text.isBlank quote = false := by
  simp only [isQuote, Bool.or_eq_true, decide_eq_true_eq] at h
  rcases h with (rfl | rfl) | rfl <;> decide

theorem bare_of_isBlank {c : Char} (hc : Text.isBlank c = true) (cs : List Char) : Bare c cs := by
  refine ⟨ne_of_isBlank hc (by decide), fun h => ne_of_isBlank hc (by decide) h.1, ?_, ?_⟩
  · cases hline : startsLineComment c cs with
    | false => rfl
    | true =>
      obtain ⟨-, -, -, ⟨h, -⟩ | ⟨h, -⟩⟩ := startsLineComment_eq_true.1 hline <;>
        exact absurd h (ne_of_isBlank hc (by decide))
  · cases hquote : isQuote c with
    | false => rfl
    | true => exact absurd rfl (ne_of_isBlank hc (not_isBlank_of_isQuote hquote))

theorem directive?_of_isBlank {s : Scanner} {c : Char} {cs : List Char}
    (hc : Text.isBlank c = true) : s.directive? (c :: cs) = none := by
  cases hd : s.directive? (c :: cs) with
  | none => rfl
  | some d =>
    have hhead := Directive.not_isBlank_head_of_read? (read?_of_directive? hd)
    exact absurd rfl (ne_of_isBlank hc hhead)

theorem step_of_directive? {s : Scanner} {c : Char} {cs : List Char} {d : Directive}
    (hplain : s.context = .plain) (h : s.directive? (c :: cs) = some d) :
    s.step c cs = (s.redefine d.token, d.rest) := by
  rw [step_of_bare hplain (bare_of_read? (read?_of_directive? h)), stepBare, h]

theorem step_of_close {s : Scanner} {c : Char} {cs rest : List Char} (hplain : s.context = .plain)
    (hbare : Bare c cs) (hdirective : s.directive? (c :: cs) = none)
    (h : s.afterDelimiter? c cs = some rest) : s.step c cs = (s.commit, rest) := by
  rw [step_of_bare hplain hbare, stepBare, hdirective, h]

end SqlBatch.Script.Scanner
