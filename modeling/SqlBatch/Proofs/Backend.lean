import SqlBatch.Backend
import Mathlib.Logic.Function.Basic

/-! The statement that switches to a database, read back. Behind its fixed words stands one quoted
identifier, which a reader takes for the whole name and for nothing behind it; and no other text is
read as that name. So no name breaks out of its quotation marks, and no two names are confused. -/

namespace SqlBatch

namespace Text.Identifier

theorem readInside?_eq_some {mark : Char} {text name rest : List Char}
    (h : readInside? mark text = some (name, rest)) :
    text = double mark name ++ mark :: rest ∧ rest.head? ≠ some mark := by
  fun_induction readInside? mark text generalizing name rest with
  | case1 => contradiction
  | case2 =>
    cases h
    exact ⟨rfl, by simp⟩
  | case3 => contradiction
  | case4 cs ih =>
    -- two marks in a row are one mark of the name
    obtain ⟨⟨name', rest'⟩, hread, heq⟩ := Option.map_eq_some_iff.1 h
    cases heq
    obtain ⟨htext, hrest⟩ := ih hread
    refine ⟨?_, hrest⟩
    rw [double, if_pos rfl, htext]
    rfl
  | case5 d cs hd =>
    cases h
    refine ⟨rfl, ?_⟩
    rw [List.head?_cons]
    exact fun hmark => hd (Option.some.inj hmark)
  | case6 c d cs hc ih =>
    obtain ⟨⟨name', rest'⟩, hread, heq⟩ := Option.map_eq_some_iff.1 h
    cases heq
    obtain ⟨htext, hrest⟩ := ih hread
    refine ⟨?_, hrest⟩
    rw [double, if_neg hc, htext]
    rfl

theorem read?_eq_some_iff {mark : Char} {text name : List Char} :
    read? mark text = some (name, []) ↔ text = write mark name := by
  constructor
  · intro h
    cases text with
    | nil => contradiction
    | cons c cs =>
      by_cases hc : c = mark
      · obtain ⟨htext, -⟩ := readInside?_eq_some ((if_pos hc).symm.trans h)
        rw [hc, htext, write]
      · exact absurd ((if_neg hc).symm.trans h) (by simp)
  · rintro rfl
    have hend : ([] : List Char).head? ≠ some mark := by simp
    have hread := read?_write mark name [] hend
    rwa [List.append_nil] at hread

theorem quote_injective (mark : Char) : Function.Injective (quote mark) := by
  intro a b h
  have hwrite : write mark a.toList = write mark b.toList := String.ofList_injective h
  have ha : read? mark (write mark a.toList) = some (a.toList, []) := read?_eq_some_iff.2 rfl
  have hb : read? mark (write mark b.toList) = some (b.toList, []) := read?_eq_some_iff.2 rfl
  rw [hwrite, hb] at ha
  have hname : b.toList = a.toList := congrArg Prod.fst (Option.some.inj ha)
  exact (String.toList_injective hname).symm

end Text.Identifier

namespace Backend

open Text.Identifier

/-- A name is read back whole from the statement that switches to it, and only from that one. -/
theorem useDatabase?_reads_back (name : String) :
    (∃ text, mysql.useDatabase? name = some ("USE " ++ text) ∧
      ∀ other : String, read? '`' other.toList = some (name.toList, []) ↔ other = text) ∧
    (∃ text, postgresql.useDatabase? name = some ("SET search_path TO " ++ text) ∧
      ∀ other : String, read? '"' other.toList = some (name.toList, []) ↔ other = text) ∧
    Function.Injective mysql.useDatabase? ∧ Function.Injective postgresql.useDatabase? := by
  have hread : ∀ mark (other : String),
      read? mark other.toList = some (name.toList, []) ↔ other = quote mark name := by
    intro mark other
    rw [read?_eq_some_iff, quote, ← String.toList_inj, String.toList_ofList]
  refine ⟨⟨_, rfl, hread '`'⟩, ⟨_, rfl, hread '"'⟩, ?_, ?_⟩
  · intro a b h
    have hquote : "USE " ++ quote '`' a = "USE " ++ quote '`' b := Option.some.inj h
    exact quote_injective '`' (String.append_right_inj _ |>.1 hquote)
  · intro a b h
    have hquote : "SET search_path TO " ++ quote '"' a = "SET search_path TO " ++ quote '"' b :=
      Option.some.inj h
    exact quote_injective '"' (String.append_right_inj _ |>.1 hquote)

end Backend
end SqlBatch
