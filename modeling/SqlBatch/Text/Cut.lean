import SqlBatch.Text.Blank

/-! Cutting text at a place that is counted in bytes. `takeBytes` and `dropBytes` give a character
that the place falls into to the first part; `upTo` and `behind` refuse a place that does not stand
between two characters of the text, or at one of its ends. -/

namespace SqlBatch.Text

def dropBytes : Nat → List Char → List Char
  | 0, cs => cs
  | _ + 1, [] => []
  | n + 1, c :: cs => dropBytes (n + 1 - c.utf8Size) cs

def takeBytes : Nat → List Char → List Char
  | 0, _ => []
  | _ + 1, [] => []
  | n + 1, c :: cs => c :: takeBytes (n + 1 - c.utf8Size) cs

def byteSize : List Char → Nat
  | [] => 0
  | c :: cs => c.utf8Size + byteSize cs

theorem exists_byteSize_cons (c : Char) (cs : List Char) : ∃ n, byteSize (c :: cs) = n + 1 ∧
    c.utf8Size ≤ n + 1 ∧ n + 1 - c.utf8Size = byteSize cs := by
  have hc := c.utf8Size_pos
  have hsize : byteSize (c :: cs) = c.utf8Size + byteSize cs := rfl
  exact ⟨byteSize (c :: cs) - 1, by omega, by omega, by omega⟩

@[simp] theorem byteSize_append (as bs : List Char) :
    byteSize (as ++ bs) = byteSize as + byteSize bs := by
  induction as with
  | nil => simp [byteSize]
  | cons c cs ih => simp only [List.cons_append, byteSize, ih, Nat.add_assoc]

theorem byteSize_toList (s : String) : byteSize s.toList = s.utf8ByteSize := by
  obtain ⟨cs, rfl⟩ : ∃ cs, s = String.ofList cs := ⟨s.toList, String.ofList_toList.symm⟩
  rw [String.toList_ofList]
  induction cs with
  | nil => rfl
  | cons c cs ih =>
    rw [String.ofList_cons, String.utf8ByteSize_append, String.utf8ByteSize_singleton, ← ih]
    rfl

theorem byteSize_pos {cs : List Char} (h : cs ≠ []) : 0 < byteSize cs := by
  cases cs with
  | nil => contradiction
  | cons c cs => exact Nat.lt_of_lt_of_le c.utf8Size_pos (Nat.le_add_right ..)

/-- What stands before and behind the place `n`, if that is one. -/
def cut? : Nat → List Char → Option (List Char × List Char)
  | 0, cs => some ([], cs)
  | _ + 1, [] => none
  | n + 1, c :: cs =>
    if c.utf8Size ≤ n + 1 then (cut? (n + 1 - c.utf8Size) cs).map fun p => (c :: p.1, p.2)
    else none

structure BadPlace where
  place : Nat
  text : List Char
  deriving DecidableEq, Repr

def upTo (n : Nat) (cs : List Char) : Except BadPlace (List Char) :=
  match cut? n cs with
  | some (front, _) => .ok front
  | none => .error ⟨n, cs⟩

def behind (n : Nat) (cs : List Char) : Except BadPlace (List Char) :=
  match cut? n cs with
  | some (_, rest) => .ok rest
  | none => .error ⟨n, cs⟩

theorem cut?_eq_some {n : Nat} {cs front rest : List Char} :
    cut? n cs = some (front, rest) ↔ cs = front ++ rest ∧ byteSize front = n := by
  constructor
  · intro h
    fun_induction cut? n cs generalizing front rest with
    | case1 cs =>
      cases h
      exact ⟨rfl, rfl⟩
    | case2 => contradiction
    | case3 n c cs hsize ih =>
      obtain ⟨⟨front', rest'⟩, hcut, heq⟩ := Option.map_eq_some_iff.1 h
      cases heq
      obtain ⟨hcs, hfront⟩ := ih hcut
      refine ⟨by rw [List.cons_append, ← hcs], ?_⟩
      rw [byteSize, hfront]
      omega
    | case4 => contradiction
  · rintro ⟨rfl, rfl⟩
    induction front with
    | nil => cases rest <;> rfl
    | cons c cs ih =>
      obtain ⟨n, hn, hle, hrest⟩ := exists_byteSize_cons c cs
      rw [hn, List.cons_append, cut?, if_pos hle, hrest, ih]
      rfl

/-- The places of a text are the positions between its characters in UTF-8. -/
theorem isValid_iff_cut? (s : String) (n : Nat) :
    String.Pos.Raw.IsValid s ⟨n⟩ ↔ ∃ p, cut? n s.toList = some p := by
  rw [String.Pos.Raw.isValid_iff_exists_append]
  constructor
  · rintro ⟨front, rest, rfl, hplace⟩
    refine ⟨(front.toList, rest.toList), cut?_eq_some.2 ⟨String.toList_append, ?_⟩⟩
    rw [byteSize_toList]
    exact (congrArg String.Pos.Raw.byteIdx hplace).symm
  · rintro ⟨⟨front, rest⟩, hcut⟩
    obtain ⟨htext, hsize⟩ := cut?_eq_some.1 hcut
    refine ⟨String.ofList front, String.ofList rest, ?_, ?_⟩
    · rw [← String.ofList_append, ← htext, String.ofList_toList]
    · rw [String.rawEndPos, ← byteSize_toList, String.toList_ofList, hsize]

example : upTo 1 ['é'] = .error ⟨1, ['é']⟩ ∧ upTo 2 ['é'] = .ok ['é'] := ⟨rfl, rfl⟩

theorem upTo_append (front rest : List Char) :
    upTo (byteSize front) (front ++ rest) = .ok front := by
  rw [upTo, cut?_eq_some.2 ⟨rfl, rfl⟩]

theorem behind_append (front rest : List Char) :
    behind (byteSize front) (front ++ rest) = .ok rest := by
  rw [behind, cut?_eq_some.2 ⟨rfl, rfl⟩]

theorem eq_of_upTo {n : Nat} {cs front : List Char} (h : upTo n cs = .ok front) :
    ∃ rest, cs = front ++ rest ∧ byteSize front = n := by
  unfold upTo at h
  split at h
  · rename_i front' rest hcut
    obtain rfl : front' = front := Except.ok.inj h
    exact ⟨rest, cut?_eq_some.1 hcut⟩
  · contradiction

def breakPlace? : List Char → Option Nat
  | [] => none
  | c :: cs => if isBreak c then some 0 else (breakPlace? cs).map (c.utf8Size + ·)

theorem breakPlace?_getD (cs : List Char) :
    (breakPlace? cs).getD (byteSize cs) = byteSize (line cs).1 := by
  induction cs with
  | nil => rfl
  | cons c cs ih =>
    rw [breakPlace?, line]
    cases hc : isBreak c with
    | true => simp [hc, byteSize]
    | false =>
      rw [line] at ih
      simp only [hc, Bool.false_eq_true, if_false, Bool.not_false, List.takeWhile_cons_of_pos,
        byteSize, ← ih]
      cases breakPlace? cs <;> rfl

end SqlBatch.Text
