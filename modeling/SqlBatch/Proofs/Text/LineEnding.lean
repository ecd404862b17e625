import SqlBatch.Proofs.Text.Trim

/-! Text whose lines end with a line feed, and the same text with a carriage return in front of
each. What is found in the one is found in the other, as long as the text that is looked for has no
line break and there was no carriage return before. -/

namespace SqlBatch.Text

def crlf (cs : List Char) : List Char := cs.flatMap fun c => if c = '\n' then ['\r', '\n'] else [c]

def crlfString (s : String) : String := String.ofList (crlf s.toList)

@[simp] theorem crlf_nil : crlf [] = [] := rfl

@[simp] theorem crlf_lineFeed (cs : List Char) : crlf ('\n' :: cs) = '\r' :: '\n' :: crlf cs := rfl

theorem crlf_cons {c : Char} (h : c ≠ '\n') (cs : List Char) : crlf (c :: cs) = c :: crlf cs := by
  have hc : (if c = '\n' then ['\r', '\n'] else [c]) = [c] := if_neg h
  rw [crlf, List.flatMap_cons, hc]
  rfl

@[simp] theorem crlf_append (as bs : List Char) : crlf (as ++ bs) = crlf as ++ crlf bs :=
  List.flatMap_append

theorem crlf_of_forall {cs : List Char} (h : ∀ c ∈ cs, isBreak c = false) : crlf cs = cs := by
  induction cs with
  | nil => rfl
  | cons c cs ih =>
    have hc : c ≠ '\n' := by
      rintro rfl
      exact absurd (h '\n' List.mem_cons_self) (by decide)
    rw [crlf_cons hc, ih fun x hx => h x (List.mem_cons_of_mem c hx)]

theorem crlf_eq_cons {c : Char} (hc : isBreak c = false) {cs rest : List Char} :
    crlf cs = c :: rest ↔ ∃ rest', cs = c :: rest' ∧ rest = crlf rest' := by
  have hne : c ≠ '\r' ∧ c ≠ '\n' := by simpa [isBreak] using hc
  cases cs with
  | nil => simp
  | cons d cs =>
    by_cases hd : d = '\n'
    · subst hd
      simp [hne.1.symm, hne.2.symm]
    · simp only [crlf_cons hd, List.cons.injEq]
      constructor
      · rintro ⟨rfl, rfl⟩
        exact ⟨cs, ⟨rfl, rfl⟩, rfl⟩
      · rintro ⟨rest', ⟨rfl, rfl⟩, rfl⟩
        exact ⟨rfl, rfl⟩

theorem head?_crlf {c : Char} (hc : isBreak c = false) (cs : List Char) :
    (crlf cs).head? = some c ↔ cs.head? = some c := by
  rw [List.head?_eq_some_iff, List.head?_eq_some_iff]
  constructor
  · rintro ⟨rest, hrest⟩
    obtain ⟨rest', hcs, -⟩ := (crlf_eq_cons hc).1 hrest
    exact ⟨rest', hcs⟩
  · rintro ⟨rest, hrest⟩
    exact ⟨crlf rest, (crlf_eq_cons hc).2 ⟨rest, hrest, rfl⟩⟩

theorem tail_crlf {c : Char} (hc : isBreak c = false) {cs : List Char}
    (h : cs.head? = some c) : (crlf cs).tail = crlf cs.tail := by
  obtain ⟨rest, rfl⟩ := List.head?_eq_some_iff.1 h
  have hcrlf : crlf (c :: rest) = c :: crlf rest := (crlf_eq_cons hc).2 ⟨rest, rfl, rfl⟩
  rw [hcrlf, List.tail_cons, List.tail_cons]

@[simp] theorem allBlank_crlf (cs : List Char) : allBlank (crlf cs) = allBlank cs := by
  induction cs with
  | nil => rfl
  | cons c cs ih =>
    by_cases hc : c = '\n'
    · subst hc
      have hreturn : isBlank '\r' = true := rfl
      simp [ih, hreturn]
    · rw [crlf_cons hc, allBlank_cons, allBlank_cons, ih]

theorem trimStart_crlf (cs : List Char) : trimStart (crlf cs) = crlf (trimStart cs) := by
  obtain ⟨lead, hlead, hcs⟩ := exists_append_trimStart cs
  have hskip : trimStart (crlf cs) = trimStart (crlf (trimStart cs)) := by
    conv_lhs => rw [hcs, crlf_append]
    exact trimStart_append_of_allBlank (by rw [allBlank_crlf, hlead]) _
  rw [hskip]
  -- what is left starts with no blank, so with no line feed
  cases hrest : trimStart cs with
  | nil => rfl
  | cons c rest =>
    have hc : isBlank c = false := not_isBlank_head_trimStart (by rw [hrest, List.head?_cons])
    have hne : c ≠ '\n' := by
      rintro rfl
      exact absurd hc (by decide)
    rw [crlf_cons hne]
    exact trimStart_of_head fun x hx => by rwa [← Option.some.inj hx]

theorem trimEnd_crlf (cs : List Char) : trimEnd (crlf cs) = crlf (trimEnd cs) := by
  obtain ⟨tail, htail, hcs⟩ := exists_trimEnd_append cs
  have hskip : trimEnd (crlf cs) = trimEnd (crlf (trimEnd cs)) := by
    conv_lhs => rw [hcs, crlf_append]
    exact trimEnd_append_of_allBlank _ (by rw [allBlank_crlf, htail])
  rw [hskip]
  cases hrest : trimEnd cs using List.reverseRecOn with
  | nil => rfl
  | append_singleton front c _ =>
    have hc : isBlank c = false := not_isBlank_last_trimEnd hrest
    have hne : c ≠ '\n' := by
      rintro rfl
      exact absurd hc (by decide)
    have hlast : allBlank [c] = false := by simpa using hc
    have hkept : trimEnd [c] = [c] := by simp [trimEnd, hc]
    rw [crlf_append, crlf_cons hne, crlf_nil, trimEnd_append_of_not_allBlank _ hlast, hkept]

theorem line_crlf (cs : List Char) :
    line (crlf cs) = ((line cs).1, crlf (line cs).2) := by
  have hsplit : crlf cs = (line cs).1 ++ crlf (line cs).2 := by
    conv_lhs => rw [← line_append cs, crlf_append]
    rw [crlf_of_forall fun c hc => not_isBreak_of_mem_line hc]
  rw [hsplit]
  apply line_append_of_forall
  · intro c hc
    exact not_isBreak_of_mem_line hc
  · intro c hc
    cases hrest : (line cs).2 with
    | nil => simp [hrest] at hc
    | cons b behind =>
      have hb : isBreak b = true := isBreak_head_line_rest (by rw [hrest, List.head?_cons])
      by_cases hfeed : b = '\n'
      · rw [hrest, hfeed, crlf_lineFeed] at hc
        rw [← Option.some.inj hc]
        rfl
      · rw [hrest, crlf_cons hfeed] at hc
        rwa [← Option.some.inj hc]

theorem eq_lineFeed {cs : List Char} {b : Char} (h : '\r' ∉ cs) (hb : b ∈ cs)
    (hbreak : isBreak b = true) : b = '\n' := by
  simp only [isBreak, Bool.or_eq_true, decide_eq_true_eq] at hbreak
  rcases hbreak with rfl | hfeed
  · exact absurd hb h
  · exact hfeed

theorem after?_crlf {lead cs : List Char} (h : ∀ c ∈ lead, isBreak c = false) :
    after? lead (crlf cs) = (after? lead cs).map crlf := by
  induction lead generalizing cs with
  | nil => rfl
  | cons l lead ih =>
    have hl : l ≠ '\r' ∧ l ≠ '\n' := by simpa [isBreak] using h l List.mem_cons_self
    have hlead {cs : List Char} := @ih cs fun c hc => h c (List.mem_cons_of_mem l hc)
    cases cs with
    | nil => rfl
    | cons c cs =>
      by_cases hc : c = '\n'
      · subst hc
        simp [after?, hl.1, hl.2]
      · rw [crlf_cons hc]
        by_cases hsame : l = c
        · simpa [after?, hsame] using hlead
        · simp [after?, hsame]

end SqlBatch.Text
