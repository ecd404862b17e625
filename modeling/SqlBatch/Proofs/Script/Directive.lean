import SqlBatch.Proofs.Text.Trim
import SqlBatch.Script.Directive

/-! What a directive is as text: the keyword in some case, the rest of its line behind a blank
character, and one line terminator. -/

namespace SqlBatch.Script

open Text

theorem afterLetters?_eq_some {ls cs rest : List Char} :
    afterLetters? ls cs = some rest ↔
      ∃ word, cs = word ++ rest ∧ word.map Char.toLower = ls := by
  induction ls generalizing cs with
  | nil => simp [afterLetters?, eq_comm]
  | cons l ls ih =>
    cases cs with
    | nil => simp [afterLetters?]
    | cons c cs =>
      constructor
      · intro h
        simp only [afterLetters?] at h
        split at h
        · rename_i hc
          obtain ⟨word, rfl, hword⟩ := ih.1 h
          exact ⟨c :: word, rfl, by simp [hc, hword]⟩
        · simp at h
      · rintro ⟨word, hcs, hword⟩
        cases word with
        | nil => simp at hword
        | cons w word =>
          simp only [List.map_cons, List.cons.injEq, List.cons_append] at hword hcs
          obtain ⟨rfl, rfl⟩ := hcs
          simp only [afterLetters?, if_pos hword.1]
          exact ih.2 ⟨word, rfl, hword.2⟩

theorem exists_terminator {b : Char} (cs : List Char) (h : isBreak b = true) :
    ∃ terminator ∈ [['\r', '\n'], ['\r'], ['\n']],
      b :: cs = terminator ++ dropTerminator (b :: cs) := by
  by_cases hpair : b = '\r' ∧ cs.head? = some '\n'
  · obtain ⟨rfl, hhead⟩ := hpair
    obtain ⟨rest, rfl⟩ := List.head?_eq_some_iff.1 hhead
    exact ⟨['\r', '\n'], by simp, rfl⟩
  · refine ⟨[b], ?_, ?_⟩
    · simp only [isBreak, Bool.or_eq_true, decide_eq_true_eq] at h
      rcases h with rfl | rfl <;> simp
    · rw [dropTerminator, List.singleton_append]
      rintro rest rfl rfl
      exact hpair ⟨rfl, rfl⟩

theorem exists_dropTerminator {b : Char} (cs : List Char) (h : isBreak b = true) :
    ∃ front b', b :: cs = front ++ b' :: dropTerminator (b :: cs) ∧ isBreak b' = true ∧
      ∀ c ∈ front, isBreak c = true := by
  obtain ⟨terminator, hmem, htext⟩ := exists_terminator cs h
  simp only [List.mem_cons, List.not_mem_nil, or_false] at hmem
  rcases hmem with rfl | rfl | rfl
  · exact ⟨['\r'], '\n', htext, rfl, fun c hc => by rw [List.mem_singleton.1 hc]; rfl⟩
  · exact ⟨[], '\r', htext, rfl, by simp⟩
  · exact ⟨[], '\n', htext, rfl, by simp⟩

theorem exists_append_dropTerminator {b : Char} (cs : List Char) (h : isBreak b = true) :
    ∃ lead, b :: cs = lead ++ dropTerminator (b :: cs) ∧ allBlank lead = true := by
  obtain ⟨front, b', htext, hb', hfront⟩ := exists_dropTerminator cs h
  refine ⟨front ++ [b'], by rw [List.append_assoc]; exact htext, ?_⟩
  rw [allBlank, List.all_eq_true]
  intro c hc
  apply isBlank_of_isBreak
  rcases List.mem_append.1 hc with hc | hc
  · exact hfront c hc
  · rw [List.mem_singleton.1 hc]
    exact hb'

theorem exists_line_terminator (cs : List Char) : ∃ terminator,
    cs = (line cs).1 ++ terminator ++ dropTerminator (line cs).2 ∧
      (terminator = [] ∧ dropTerminator (line cs).2 = [] ∨
        terminator ∈ [['\r', '\n'], ['\r'], ['\n']]) := by
  have hsplit : cs = (line cs).1 ++ (line cs).2 := (line_append cs).symm
  cases hline : (line cs).2 with
  | nil =>
    rw [hline, List.append_nil] at hsplit
    exact ⟨[], by simpa [dropTerminator] using hsplit, Or.inl ⟨rfl, rfl⟩⟩
  | cons b behind =>
    have hb : isBreak b = true := isBreak_head_line_rest (by rw [hline, List.head?_cons])
    obtain ⟨terminator, hmem, hbehind⟩ := exists_terminator behind hb
    refine ⟨terminator, ?_, Or.inr hmem⟩
    rw [List.append_assoc, ← hbehind, ← hline]
    exact hsplit

theorem dropTerminator_lineFeed (cs : List Char) : dropTerminator ('\n' :: cs) = cs := rfl

theorem ne_nil_of_word {word : List Char} (h : word.map Char.toLower = keyword) : word ≠ [] := by
  rintro rfl
  simp [keyword] at h

theorem not_isBlank_of_mem_word {word : List Char} (h : word.map Char.toLower = keyword)
    {c : Char} (hc : c ∈ word) : isBlank c = false := by
  have hletter : c.toLower ∈ keyword := h ▸ List.mem_map_of_mem hc
  cases hblank : isBlank c with
  | false => rfl
  | true =>
    rw [toLower_of_isBlank hblank] at hletter
    have hkeyword : ∀ l ∈ keyword, isBlank l = false := forall_mem_of_all (by decide)
    rw [hkeyword c hletter] at hblank
    exact hblank.symm

theorem not_isBreak_of_mem_word {word : List Char} (h : word.map Char.toLower = keyword)
    {c : Char} (hc : c ∈ word) : isBreak c = false := by
  cases hbreak : isBreak c with
  | false => rfl
  | true => rw [← not_isBlank_of_mem_word h hc, isBlank_of_isBreak hbreak]

namespace Directive

theorem read?_eq_some {cs : List Char} {d : Directive} :
    read? cs = some d ↔ ∃ word after, cs = word ++ after ∧ word.map Char.toLower = keyword ∧
      after.head?.all isBlank = true ∧ d.token = trim (line after).1 ∧
      d.rest = dropTerminator (line after).2 := by
  constructor
  · intro h
    unfold read? at h
    split at h
    · simp at h
    · rename_i after hafter
      split at h
      · rename_i hblank
        obtain ⟨word, hcs, hword⟩ := afterLetters?_eq_some.1 hafter
        simp only [Option.some.injEq] at h
        exact ⟨word, after, hcs, hword, hblank, by rw [← h], by rw [← h]⟩
      · simp at h
  · rintro ⟨word, after, hcs, hword, hblank, htoken, hrest⟩
    unfold read?
    rw [afterLetters?_eq_some.2 ⟨word, hcs, hword⟩]
    simp only [hblank, if_true, Option.some.injEq]
    rw [← htoken, ← hrest]

theorem exists_line {cs : List Char} {d : Directive} (h : read? cs = some d) :
    ∃ word name terminator, cs = word ++ name ++ terminator ++ d.rest ∧
      word.map Char.toLower = keyword ∧ (∀ c ∈ name, isBreak c = false) ∧
      (terminator = [] ∧ d.rest = [] ∨ terminator ∈ [['\r', '\n'], ['\r'], ['\n']]) := by
  obtain ⟨word, after, rfl, hword, -, -, hrest⟩ := read?_eq_some.1 h
  obtain ⟨terminator, hafter, hend⟩ := exists_line_terminator after
  rw [← hrest] at hafter hend
  refine ⟨word, (line after).1, terminator, ?_, hword, fun c hc => not_isBreak_of_mem_line hc, hend⟩
  rw [List.append_assoc, List.append_assoc, ← List.append_assoc (line after).1, ← hafter]

theorem exists_text {cs : List Char} {d : Directive} (h : read? cs = some d) :
    ∃ text, cs = text ++ d.rest ∧
      (d.rest = [] ∨ ∃ front b, text = front ++ [b] ∧ isBreak b = true) := by
  obtain ⟨word, name, terminator, htext, -, -, ⟨-, hend⟩ | hmem⟩ := exists_line h
  · exact ⟨_, htext, Or.inl hend⟩
  · refine ⟨_, htext, Or.inr ?_⟩
    simp only [List.mem_cons, List.not_mem_nil, or_false] at hmem
    rcases hmem with rfl | rfl | rfl
    · exact ⟨word ++ name ++ ['\r'], '\n', by simp, rfl⟩
    · exact ⟨word ++ name, '\r', rfl, rfl⟩
    · exact ⟨word ++ name, '\n', rfl, rfl⟩

theorem read?_eq_none {cs : List Char} : read? cs = none ↔ ∀ word after, cs = word ++ after →
    word.map Char.toLower = keyword → after.head?.all isBlank = false := by
  rw [Option.eq_none_iff_forall_ne_some]
  constructor
  · intro h word after hcs hword
    cases hblank : after.head?.all isBlank with
    | false => rfl
    | true =>
      exact absurd (read?_eq_some.2 ⟨word, after, hcs, hword, hblank, rfl, rfl⟩)
        (h ⟨trim (line after).1, dropTerminator (line after).2⟩)
  · intro h d hd
    obtain ⟨word, after, hcs, hword, hblank, -, -⟩ := read?_eq_some.1 hd
    rw [h word after hcs hword] at hblank
    exact Bool.noConfusion hblank

theorem read?_append_eq_none {b : Char} (hb : isBreak b = true) {text : List Char}
    (rest : List Char) : read? (text ++ b :: rest) = none ↔ read? text = none := by
  rw [read?_eq_none, read?_eq_none]
  constructor
  · intro h word after htext hword
    have hlong := h word (after ++ b :: rest) (by rw [htext, List.append_assoc]) hword
    cases after with
    | nil => simp [isBlank_of_isBreak hb] at hlong
    | cons c after => exact hlong
  · intro h word after htext hword
    rcases List.append_eq_append_iff.1 htext with ⟨more, rfl, hmore⟩ | ⟨more, rfl, hmore⟩
    · cases more with
      | nil => simpa using h text [] (by simp) (by simpa using hword)
      | cons c more =>
        obtain ⟨rfl, -⟩ : b = c ∧ rest = more ++ after := by simpa using hmore
        rw [not_isBreak_of_mem_word hword (by simp)] at hb
        exact Bool.noConfusion hb
    · have hshort := h word more rfl hword
      cases more with
      | nil => simp at hshort
      | cons c more =>
        rw [hmore]
        exact hshort

theorem toLower_head_of_read? {c : Char} {cs : List Char} {d : Directive}
    (h : read? (c :: cs) = some d) : c.toLower = 'd' := by
  obtain ⟨word, after, hcs, hword, -⟩ := read?_eq_some.1 h
  cases word with
  | nil => simp [keyword] at hword
  | cons w word =>
    simp only [List.cons_append, List.cons.injEq, List.map_cons, keyword] at hcs hword
    rw [hcs.1, hword.1]

theorem not_isBlank_head_of_read? {c : Char} {cs : List Char} {d : Directive}
    (h : read? (c :: cs) = some d) : isBlank c = false := by
  have hletter := toLower_head_of_read? h
  cases hblank : isBlank c with
  | false => rfl
  | true =>
    rw [toLower_of_isBlank hblank] at hletter
    rw [hletter] at hblank
    exact absurd hblank (by decide)

end Directive
end SqlBatch.Script
