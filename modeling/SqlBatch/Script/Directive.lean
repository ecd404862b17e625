import SqlBatch.Text.Blank

/-! A directive line redefines the delimiter: the keyword in any ASCII case, then a blank character
or the end of the script, then a token up to the end of the line. Whether the keyword stands where
a directive may stand is the scanner's decision; here is only its text. -/

namespace SqlBatch.Script

open Text

def keyword : List Char := ['d', 'e', 'l', 'i', 'm', 'i', 't', 'e', 'r']

def afterLetters? : List Char → List Char → Option (List Char)
  | [], cs => some cs
  | _ :: _, [] => none
  | l :: ls, c :: cs => if c.toLower = l then afterLetters? ls cs else none

def dropTerminator : List Char → List Char
  | '\r' :: '\n' :: cs => cs
  | _ :: cs => cs
  | [] => []

structure Directive where
  /-- The new delimiter; an empty token leaves the delimiter as it is. -/
  token : List Char
  rest : List Char
  deriving DecidableEq, Repr

def Directive.read? (cs : List Char) : Option Directive :=
  match afterLetters? keyword cs with
  | none => none
  | some after =>
    if after.head?.all isBlank then
      some ⟨trim (line after).1, dropTerminator (line after).2⟩
    else none

theorem afterLetters?_length {ls cs rest : List Char} (h : afterLetters? ls cs = some rest) :
    cs.length = ls.length + rest.length := by
  induction ls generalizing cs with
  | nil => simp_all [afterLetters?]
  | cons l ls ih =>
    cases cs with
    | nil => simp [afterLetters?] at h
    | cons c cs =>
      simp only [afterLetters?] at h
      split at h
      · have := ih h
        simp only [List.length_cons]
        omega
      · simp at h

theorem dropTerminator_length_le (cs : List Char) : (dropTerminator cs).length ≤ cs.length := by
  fun_cases dropTerminator cs <;> simp only [List.length_cons, List.length_nil] <;> omega

theorem Directive.read?_length {cs : List Char} {d : Directive} (h : read? cs = some d) :
    d.rest.length + 9 ≤ cs.length := by
  unfold read? at h
  split at h
  · simp at h
  · rename_i after hafter
    split at h
    · simp only [Option.some.injEq] at h
      subst h
      have hlen : cs.length = 9 + after.length := afterLetters?_length hafter
      have hdrop := dropTerminator_length_le (line after).2
      have hline := line_rest_length_le after
      simp only
      omega
    · simp at h

end SqlBatch.Script
