import Mathlib.Data.List.Infix
import SqlBatch.Proofs.Text.Trim

/-! Text split at a separator. Occurrences of the separator are taken from left to right, and none
that overlaps one before it. -/

namespace SqlBatch.Text

def segments (d : List Char) : List Char → List (List Char)
  | [] => [[]]
  | c :: cs =>
    if d ≠ [] ∧ d <+: c :: cs then [] :: segments d ((c :: cs).drop d.length)
    else (segments d cs).modifyHead (c :: ·)
termination_by cs => cs.length
decreasing_by
  · have := List.length_pos_of_ne_nil (by tauto : d ≠ [])
    simp
    omega
  · simp

variable {d : List Char}

theorem segments_append (h : d ≠ []) (rest : List Char) :
    segments d (d ++ rest) = [] :: segments d rest := by
  obtain ⟨c, ds, rfl⟩ := List.exists_cons_of_ne_nil h
  rw [List.cons_append, segments, if_pos ⟨h, List.prefix_append (c :: ds) rest⟩]
  simp

theorem segments_cons {c : Char} {cs : List Char} (h : ¬d <+: c :: cs) :
    segments d (c :: cs) = (segments d cs).modifyHead (c :: ·) := by
  rw [segments, if_neg fun hd => h hd.2]

theorem segments_ne_nil (d cs : List Char) : segments d cs ≠ [] := by
  fun_induction segments d cs with
  | case1 => exact List.cons_ne_nil _ _
  | case2 => exact List.cons_ne_nil _ _
  | case3 c cs _ ih => simpa using ih

theorem exists_segments_eq (d cs : List Char) : ∃ p ps, segments d cs = p :: ps :=
  List.exists_cons_of_ne_nil (segments_ne_nil d cs)

theorem intercalate_segments (d cs : List Char) : d.intercalate (segments d cs) = cs := by
  fun_induction segments d cs with
  | case1 => rfl
  | case2 c cs h ih =>
    obtain ⟨p, ps, hps⟩ := exists_segments_eq d ((c :: cs).drop d.length)
    rw [hps] at ih ⊢
    rw [List.intercalate_cons_cons, ih, List.nil_append]
    exact List.prefix_iff_eq_append.1 h.2
  | case3 c cs _ ih =>
    obtain ⟨p, ps, hps⟩ := exists_segments_eq d cs
    rw [hps] at ih ⊢
    rw [List.modifyHead_cons, ← ih]
    cases ps with
    | nil => simp
    | cons q qs => rw [List.intercalate_cons_cons, List.intercalate_cons_cons]; rfl

theorem not_isInfix_of_getLast? (hd : d ≠ []) {cs p : List Char}
    (hp : p ∈ (segments d cs).getLast?) : ¬d <:+: p := by
  fun_induction segments d cs generalizing p with
  | case1 =>
    obtain rfl : [] = p := by simpa using hp
    rwa [List.infix_nil]
  | case2 c cs hprefix ih =>
    obtain ⟨q, ps, hps⟩ := exists_segments_eq d ((c :: cs).drop d.length)
    rw [hps] at ih hp
    exact ih hp
  | case3 c cs hprefix ih =>
    have hcs := intercalate_segments d cs
    obtain ⟨q, ps, hps⟩ := exists_segments_eq d cs
    rw [hps] at ih hcs hp
    cases ps with
    | nil =>
      obtain rfl : c :: q = p := by simpa using hp
      obtain rfl : q = cs := by simpa using hcs
      rw [List.infix_cons_iff, not_or]
      exact ⟨fun h => hprefix ⟨hd, h⟩, ih rfl⟩
    | cons r ps => exact ih hp

/-! A separator of one character. -/

variable (c : Char)

theorem segments_singleton_cons (e : Char) (cs : List Char) : segments [c] (e :: cs) =
    if e = c then [] :: segments [c] cs else (segments [c] cs).modifyHead (e :: ·) := by
  split
  · rename_i h
    rw [h]
    exact segments_append (List.cons_ne_nil c []) cs
  · rename_i h
    refine segments_cons fun hprefix => h ?_
    exact (List.cons_prefix_cons.1 hprefix).1.symm

theorem length_segments_singleton (cs : List Char) :
    (segments [c] cs).length = cs.count c + 1 := by
  induction cs with
  | nil => simp [segments]
  | cons e cs ih =>
    rw [segments_singleton_cons, List.count_cons]
    split
    · rename_i h
      simp [h, ih]
    · rename_i h
      simp [h, ih]

theorem intercalate_concat (d p q : List Char) (ps : List (List Char)) :
    d.intercalate (p :: ps ++ [q]) = d.intercalate (p :: ps) ++ d ++ q := by
  induction ps generalizing p with
  | nil => simp [List.intercalate_cons_cons]
  | cons r ps ih =>
    rw [List.cons_append, List.cons_append, List.intercalate_cons_cons, ← List.cons_append, ih,
      List.intercalate_cons_cons]
    simp only [List.append_assoc]

theorem rtakeWhile_append_cons {p : Char → Bool} {e : Char} {last : List Char}
    (he : p e = false) (hlast : ∀ x ∈ last, p x = true) (front : List Char) :
    (front ++ e :: last).rtakeWhile p = last := by
  rw [List.rtakeWhile, List.reverse_append, List.reverse_cons, List.append_assoc,
    List.takeWhile_append_of_pos (by simpa using hlast), List.singleton_append,
    List.takeWhile_cons_of_neg (by simp [he]), List.append_nil, List.reverse_reverse]

theorem getLast?_segments_singleton (cs : List Char) :
    (segments [c] cs).getLast? = some (cs.rtakeWhile (· ≠ c)) := by
  have hcs := intercalate_segments [c] cs
  have hsplit := List.dropLast_append_getLast (segments_ne_nil [c] cs)
  generalize (segments [c] cs).getLast _ = last at hsplit
  have hlast? : (segments [c] cs).getLast? = some last := by rw [← hsplit, List.getLast?_concat]
  have hlast : ∀ e ∈ last, decide (e ≠ c) = true := by
    intro e he
    rw [decide_eq_true_eq]
    rintro rfl
    obtain ⟨front, back, rfl⟩ := List.append_of_mem he
    exact not_isInfix_of_getLast? (List.cons_ne_nil e []) hlast? ⟨front, back, by simp⟩
  rw [hlast?]
  congr 1
  cases hinit : (segments [c] cs).dropLast with
  | nil =>
    rw [hinit, List.nil_append] at hsplit
    rw [← hsplit, List.intercalate_singleton] at hcs
    rw [← hcs, List.rtakeWhile_eq_self_iff.2 hlast]
  | cons p ps =>
    rw [hinit] at hsplit
    rw [← hsplit, intercalate_concat, List.append_assoc, List.singleton_append] at hcs
    rw [← hcs, rtakeWhile_append_cons (by simp) hlast]

end SqlBatch.Text
