import Mathlib.Data.List.DropRight
import Mathlib.Data.List.TakeWhile
import SqlBatch.Text.Blank

/-! Trimming and line ends on concatenated text. Blank text at an end is what trimming removes, and
a line ends where the text does or right before a line break. -/

namespace SqlBatch.Text

theorem forall_mem_of_all {p : Char → Bool} {cs : List Char} (h : cs.all (!p ·) = true) :
    ∀ c ∈ cs, p c = false := by
  simpa using h

@[simp] theorem allBlank_nil : allBlank [] = true := rfl

@[simp] theorem allBlank_append (as bs : List Char) :
    allBlank (as ++ bs) = (allBlank as && allBlank bs) := List.all_append

@[simp] theorem allBlank_cons (c : Char) (cs : List Char) :
    allBlank (c :: cs) = (isBlank c && allBlank cs) := rfl

theorem isBlankString_append (s t : String) :
    isBlankString (s ++ t) = (isBlankString s && isBlankString t) := by
  rw [isBlankString, String.toList_append, allBlank_append]
  rfl

theorem allBlank_reverse (cs : List Char) : allBlank cs.reverse = allBlank cs := List.all_reverse

theorem trimStart_eq_nil {cs : List Char} : trimStart cs = [] ↔ allBlank cs = true := by
  rw [trimStart, List.dropWhile_eq_nil_iff, allBlank, List.all_eq_true]

theorem trimStart_append_of_allBlank {lead : List Char} (h : allBlank lead = true)
    (cs : List Char) : trimStart (lead ++ cs) = trimStart cs :=
  List.dropWhile_append_of_pos (by simpa [allBlank] using h)

theorem trimStart_append_cons {front : List Char} {c : Char} (cs : List Char)
    (h : allBlank front = true → isBlank c = false) :
    trimStart (front ++ c :: cs) = trimStart front ++ c :: cs := by
  cases hfront : allBlank front with
  | true =>
    rw [trimStart_append_of_allBlank hfront, trimStart_eq_nil.2 hfront, trimStart,
      List.dropWhile_cons_of_neg (by simp [h hfront]), List.nil_append]
  | false =>
    have hne : trimStart front ≠ [] := by rw [ne_eq, trimStart_eq_nil, hfront]; decide
    rw [trimStart, List.dropWhile_append, if_neg (by simpa [trimStart] using hne)]
    rfl

theorem trimEnd_append_of_allBlank (cs : List Char) {tail : List Char}
    (h : allBlank tail = true) : trimEnd (cs ++ tail) = trimEnd cs := by
  rw [trimEnd, List.reverse_append,
    List.dropWhile_append_of_pos (by simpa [allBlank] using h), ← trimEnd]

theorem trimEnd_eq_nil {cs : List Char} : trimEnd cs = [] ↔ allBlank cs = true := by
  rw [trimEnd, List.reverse_eq_nil_iff, ← trimStart, trimStart_eq_nil, allBlank_reverse]

theorem trimEnd_append_of_not_allBlank (as : List Char) {bs : List Char}
    (h : allBlank bs = false) : trimEnd (as ++ bs) = as ++ trimEnd bs := by
  have hne : List.dropWhile isBlank bs.reverse ≠ [] := by
    intro hnil
    rw [← trimStart, trimStart_eq_nil, allBlank_reverse, h] at hnil
    exact Bool.noConfusion hnil
  rw [trimEnd, trimEnd, List.reverse_append, List.dropWhile_append, if_neg (by simpa using hne),
    List.reverse_append, List.reverse_reverse]

theorem exists_trimEnd_append (cs : List Char) :
    ∃ tail, allBlank tail = true ∧ cs = trimEnd cs ++ tail := by
  refine ⟨(cs.reverse.takeWhile isBlank).reverse, ?_, ?_⟩
  · rw [allBlank_reverse, allBlank, List.all_eq_true]
    exact fun c hc => List.mem_takeWhile_imp hc
  · rw [trimEnd, ← List.reverse_append, List.takeWhile_append_dropWhile, List.reverse_reverse]

theorem exists_append_trimStart (cs : List Char) :
    ∃ lead, allBlank lead = true ∧ cs = lead ++ trimStart cs := by
  refine ⟨cs.takeWhile isBlank, ?_, List.takeWhile_append_dropWhile.symm⟩
  rw [allBlank, List.all_eq_true]
  exact fun c hc => List.mem_takeWhile_imp hc

theorem trim_eq_nil {cs : List Char} : trim cs = [] ↔ allBlank cs = true := by
  obtain ⟨lead, hlead, hcs⟩ := exists_append_trimStart cs
  have hall : allBlank cs = allBlank (trimStart cs) := by
    conv_lhs => rw [hcs, allBlank_append, hlead, Bool.true_and]
  rw [trim, trimEnd_eq_nil, hall]

theorem not_isBlank_head_trimStart {c : Char} {cs : List Char}
    (h : (trimStart cs).head? = some c) : isBlank c = false := by
  induction cs with
  | nil => simp [trimStart] at h
  | cons d cs ih =>
    cases hd : isBlank d with
    | true => exact ih (by simpa [trimStart, hd] using h)
    | false =>
      simp only [trimStart, List.dropWhile_cons, hd, List.head?_cons, Bool.false_eq_true,
        if_false, Option.some.injEq] at h
      rwa [← h]

theorem head?_of_head?_trimEnd {c : Char} {cs : List Char} (h : (trimEnd cs).head? = some c) :
    cs.head? = some c := by
  obtain ⟨tail, -, htail⟩ := exists_trimEnd_append cs
  rw [htail, List.head?_append, h, Option.some_or]

theorem not_isBlank_head_trim {c : Char} {cs : List Char} (h : (trim cs).head? = some c) :
    isBlank c = false :=
  not_isBlank_head_trimStart (head?_of_head?_trimEnd h)

theorem not_isBlank_last_trimEnd {c : Char} {cs front : List Char}
    (h : trimEnd cs = front ++ [c]) : isBlank c = false := by
  have hhead : (trimStart cs.reverse).head? = some c := by
    rw [trimStart, ← List.reverse_reverse (cs.reverse.dropWhile isBlank), ← trimEnd, h]
    simp
  exact not_isBlank_head_trimStart hhead

theorem trimStart_of_head {cs : List Char} (h : ∀ c ∈ cs.head?, isBlank c = false) :
    trimStart cs = cs := by
  cases cs with
  | nil => rfl
  | cons c cs => exact List.dropWhile_cons_of_neg (by simp [h c rfl])

theorem trimEnd_trimEnd (cs : List Char) : trimEnd (trimEnd cs) = trimEnd cs := by
  rw [trimEnd, trimEnd, List.reverse_reverse, List.dropWhile_idempotent]

theorem trim_trim (cs : List Char) : trim (trim cs) = trim cs := by
  have hstart : trimStart (trim cs) = trim cs :=
    trimStart_of_head fun c hc => not_isBlank_head_trim hc
  rw [trim, hstart, trim, trimEnd_trimEnd]

theorem trimStart_trimEnd (cs : List Char) : trimStart (trimEnd cs) = trim cs := by
  obtain ⟨lead, hlead, hcs⟩ := exists_append_trimStart cs
  cases hblank : allBlank (trimStart cs) with
  | true =>
    have hall : allBlank cs = true := by rw [hcs, allBlank_append, hlead, hblank]; rfl
    rw [trimEnd_eq_nil.2 hall, trim, trimEnd_eq_nil.2 hblank]
    rfl
  | false =>
    have hstart : trimStart (trim cs) = trim cs :=
      trimStart_of_head fun c hc => not_isBlank_head_trim hc
    conv_lhs => rw [hcs, trimEnd_append_of_not_allBlank lead hblank]
    rw [trimStart_append_of_allBlank hlead]
    exact hstart

theorem eq_nil_of_allBlank {lead : List Char} (rest : List Char) (hlead : allBlank lead = true)
    (h : ∀ c ∈ (lead ++ rest).head?, isBlank c = false) : lead = [] := by
  cases lead with
  | nil => rfl
  | cons c lead =>
    rw [allBlank_cons, h c rfl] at hlead
    exact Bool.noConfusion hlead

theorem isBreak_lineFeed : isBreak '\n' = true := rfl

theorem isBlank_lineFeed : isBlank '\n' = true := rfl

theorem isBlank_of_isSpaceOrTab {c : Char} (h : isSpaceOrTab c = true) : isBlank c = true := by
  simp only [isSpaceOrTab, Bool.or_eq_true, decide_eq_true_eq] at h
  rcases h with rfl | rfl <;> decide

theorem not_isBreak_of_isSpaceOrTab {c : Char} (h : isSpaceOrTab c = true) :
    isBreak c = false := by
  simp only [isSpaceOrTab, Bool.or_eq_true, decide_eq_true_eq] at h
  rcases h with rfl | rfl <;> decide

theorem toLower_of_isBlank {c : Char} (h : isBlank c = true) : c.toLower = c := by
  have hcase : ¬('A'.val ≤ c.val ∧ c.val ≤ 'Z'.val) := by
    rw [UInt32.le_iff_toNat_le, UInt32.le_iff_toNat_le]
    simp only [isBlank, Char.toNat, Bool.or_eq_true, Bool.and_eq_true, decide_eq_true_eq,
      beq_iff_eq] at h
    change ¬(65 ≤ c.val.toNat ∧ c.val.toNat ≤ 90)
    omega
  unfold Char.toLower
  rw [dif_neg hcase]

theorem line_cons_of_isBreak {c : Char} (h : isBreak c = true) (cs : List Char) :
    line (c :: cs) = ([], c :: cs) := by
  simp [line, h]

theorem not_isBreak_of_mem_line {c : Char} {cs : List Char} (h : c ∈ (line cs).1) :
    isBreak c = false := by
  have := List.mem_takeWhile_imp h
  simpa using this

theorem isBreak_head_line_rest {c : Char} {cs : List Char} (h : (line cs).2.head? = some c) :
    isBreak c = true := by
  obtain ⟨rest, hrest⟩ := List.head?_eq_some_iff.1 h
  have hne : cs.dropWhile (!isBreak ·) ≠ [] := by
    rw [show cs.dropWhile (!isBreak ·) = c :: rest from hrest]
    exact List.cons_ne_nil _ _
  have hhead := List.head_dropWhile_not (!isBreak ·) hne
  have hc : (cs.dropWhile (!isBreak ·)).head hne = c := by
    simp only [show cs.dropWhile (!isBreak ·) = c :: rest from hrest, List.head_cons]
  rw [hc] at hhead
  simpa using hhead

theorem line_append_of_forall {l rest : List Char} (hl : ∀ c ∈ l, isBreak c = false)
    (hrest : ∀ c ∈ rest.head?, isBreak c = true) : line (l ++ rest) = (l, rest) := by
  induction l with
  | nil =>
    cases rest with
    | nil => rfl
    | cons c cs => exact line_cons_of_isBreak (hrest c rfl) cs
  | cons c cs ih =>
    have hc := hl c List.mem_cons_self
    have htail := ih fun x hx => hl x (List.mem_cons_of_mem _ hx)
    simp only [line, Prod.mk.injEq] at htail
    simp [line, hc, htail]

end SqlBatch.Text
