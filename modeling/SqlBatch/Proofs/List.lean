import Mathlib.Algebra.Ring.Nat

/-! What changes in a list when one of its places is set anew, and what it sums up to. -/

namespace SqlBatch

variable {α : Type} {l : List α} {i : Nat} {a a' : α}

theorem map_set_of_eq {β : Type} {f : α → β} (h : l[i]? = some a) (hf : f a' = f a) :
    (l.set i a').map f = l.map f := by
  obtain ⟨hlt, rfl⟩ := List.getElem?_eq_some_iff.1 h
  have hlt' : i < (l.map f).length := by simpa using hlt
  have hf' : f a' = (l.map f)[i] := by simpa using hf
  rw [List.map_set, hf', List.set_getElem_self]

theorem sum_map_set_lt {f : α → Nat} (h : l[i]? = some a) (hf : f a' < f a) :
    ((l.set i a').map f).sum < (l.map f).sum := by
  induction l generalizing i with
  | nil => contradiction
  | cons b l ih =>
    cases i with
    | zero =>
      obtain rfl : b = a := Option.some.inj h
      simpa using hf
    | succ i => simpa using ih h

theorem sum_map_const (l : List α) (n : Nat) : (l.map fun _ => n).sum = n * l.length := by
  induction l with
  | nil => rfl
  | cons a l ih =>
    rw [List.map_cons, List.sum_cons, ih, List.length_cons, Nat.mul_succ, Nat.add_comm]

end SqlBatch
