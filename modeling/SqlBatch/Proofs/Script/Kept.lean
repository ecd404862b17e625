import SqlBatch.Proofs.Text.Trim
import SqlBatch.Script.Item
import SqlBatch.Script.Scanner

/-! The kept text of a scanner in reading order: a guarded part, which ends with an escaped
character, and a loose part behind it. Every operation of the scanner is one of two additions. -/

namespace SqlBatch.Script

open Text

namespace Kept

def push (k : Kept) (text : List Char) : Kept := { k with loose := k.loose ++ text }

def pushGuarded (k : Kept) (text : List Char) : Kept := ⟨k.text ++ text, []⟩

@[simp] theorem text_push (k : Kept) (cs : List Char) : (k.push cs).text = k.text ++ cs := by
  simp [push, text]

@[simp] theorem text_pushGuarded (k : Kept) (cs : List Char) :
    (k.pushGuarded cs).text = k.text ++ cs := by
  simp [pushGuarded, text]

@[simp] theorem push_nil (k : Kept) : k.push [] = k := by simp [push]

@[simp] theorem push_push (k : Kept) (as bs : List Char) :
    (k.push as).push bs = k.push (as ++ bs) := by
  simp [push]

theorem trimmed_eq (k : Kept) : k.trimmed = trimStart (k.guarded ++ trimEnd k.loose) := rfl

theorem trimmed_push_of_allBlank (k : Kept) {tail : List Char} (h : allBlank tail = true) :
    (k.push tail).trimmed = k.trimmed := by
  rw [trimmed_eq, trimmed_eq, push, trimEnd_append_of_allBlank _ h]

theorem trimmed_push_singleton (k : Kept) {c : Char} (h : isBlank c = false) :
    (k.push [c]).trimmed = trimStart (k.push [c]).text := by
  have hc : trimEnd [c] = [c] := by simp [trimEnd, h]
  rw [trimmed_eq, push, trimEnd_append_of_not_allBlank _ (by simpa using h), hc]
  simp [text]

theorem trimmed_pushGuarded (k : Kept) (cs : List Char) :
    (k.pushGuarded cs).trimmed = trimStart (k.pushGuarded cs).text := by
  simp [trimmed_eq, pushGuarded, text, trimEnd]

theorem exists_text_eq (k : Kept) : ∃ lead tail, allBlank lead = true ∧ allBlank tail = true ∧
    k.text = lead ++ k.trimmed ++ tail := by
  obtain ⟨tail, htail, hloose⟩ := exists_trimEnd_append k.loose
  obtain ⟨lead, hlead, htext⟩ := exists_append_trimStart (k.guarded ++ trimEnd k.loose)
  refine ⟨lead, tail, hlead, htail, ?_⟩
  rw [trimmed_eq, ← htext, text, List.append_assoc, ← hloose]

theorem not_isBlank_head_trimmed (k : Kept) {c : Char} (hc : k.trimmed.head? = some c) :
    isBlank c = false :=
  not_isBlank_head_trimStart hc

theorem exists_behind {k : Kept} {front more behind : List Char} (htext : k.text = front ++ more)
    (htrimmed : k.trimmed = front ++ behind) : ∃ lead tail, allBlank lead = true ∧
      more = lead ++ (behind ++ tail) ∧ (front = [] ∨ lead = []) := by
  obtain ⟨lead, tail, hlead, -, hall⟩ := k.exists_text_eq
  rw [htext, htrimmed] at hall
  cases front with
  | nil => exact ⟨lead, tail, hlead, by simpa using hall, Or.inl rfl⟩
  | cons c front =>
    have hc : isBlank c = false := k.not_isBlank_head_trimmed (by rw [htrimmed]; rfl)
    have hnil : lead = [] := by
      refine eq_nil_of_allBlank (c :: front ++ behind ++ tail) hlead fun e he => ?_
      rw [← List.append_assoc, ← hall] at he
      rwa [← Option.some.inj he]
    rw [hnil] at hall
    exact ⟨[], tail, rfl, by simpa using hall, Or.inr rfl⟩

end Kept

namespace Scanner

def kept (s : Scanner) : Kept := ⟨s.guarded.reverse, s.loose.reverse⟩

@[simp] theorem kept_keep (s : Scanner) (c : Char) : (s.keep c).kept = s.kept.push [c] := by
  simp [kept, keep, Kept.push]

@[simp] theorem kept_keepMarker (s : Scanner) (first second : Char) :
    (s.keepMarker first second).kept = s.kept.push [first, second] := by
  simp [kept, keepMarker, Kept.push]

@[simp] theorem kept_keepEscaped (s : Scanner) (c : Char) :
    (s.keepEscaped c).kept = s.kept.pushGuarded [c] := by
  simp [kept, keepEscaped, Kept.pushGuarded, Kept.text]

@[simp] theorem kept_commit (s : Scanner) : s.commit.kept = {} := rfl

theorem text_commit (s : Scanner) : s.commit.kept.text = [] := rfl

@[simp] theorem kept_redefine (s : Scanner) (token : List Char) :
    (s.redefine token).kept = s.kept := rfl

theorem current_eq (s : Scanner) : s.current = s.kept.text := by
  simp [current, kept, Kept.text]

theorem isBlank_eq (s : Scanner) : s.isBlank = allBlank s.kept.text := by
  simp [isBlank, kept, Kept.text, allBlank_reverse, Bool.and_comm]

theorem sql_eq (s : Scanner) : s.sql = String.ofList s.kept.trimmed := by
  simp [sql, kept, Kept.trimmed_eq, trimEnd]

theorem statements_commit (s : Scanner) : s.commit.statements =
    s.statements.push ⟨s.statements.size + 1, String.ofList s.kept.trimmed,
      String.ofList s.delimiter⟩ := by
  simp [commit, sql_eq]

theorem lineStartAfter_of_not_isBlank {c : Char} (h : Text.isBlank c = false) (before : Bool) :
    lineStartAfter c before = false := by
  have hbreak : isBreak c = false := by
    cases hb : isBreak c with
    | false => rfl
    | true => rw [isBlank_of_isBreak hb] at h; exact h
  have hspace : isSpaceOrTab c = false := by
    cases hs : isSpaceOrTab c with
    | false => rfl
    | true => rw [isBlank_of_isSpaceOrTab hs] at h; exact h
  simp [lineStartAfter, hbreak, hspace]

end Scanner
end SqlBatch.Script
