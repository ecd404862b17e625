/-! Blank characters, line breaks and trimming. Text under study is a list of characters. A blank
character is one with the White_Space property; trimming removes blank characters at the ends and
nothing else, so `trim` keeps every character between the first and the last that is not blank. -/

namespace SqlBatch.Text

def isBlank (c : Char) : Bool :=
  let n := c.toNat
  (9 ≤ n && n ≤ 13) || n == 32 || n == 0x85 || n == 0xA0 || n == 0x1680 ||
    (0x2000 ≤ n && n ≤ 0x200A) || n == 0x2028 || n == 0x2029 || n == 0x202F || n == 0x205F ||
    n == 0x3000

def isBreak (c : Char) : Bool := c = '\r' || c = '\n'

def isSpaceOrTab (c : Char) : Bool := c = ' ' || c = '\t'

def allBlank (cs : List Char) : Bool := cs.all isBlank

def trimStart (cs : List Char) : List Char := cs.dropWhile isBlank

def trimEnd (cs : List Char) : List Char := (cs.reverse.dropWhile isBlank).reverse

def trim (cs : List Char) : List Char := trimEnd (trimStart cs)

/-- The text up to the next line break, and what follows from that break on. -/
def line (cs : List Char) : List Char × List Char :=
  (cs.takeWhile (!isBreak ·), cs.dropWhile (!isBreak ·))

def isBlankString (s : String) : Bool := allBlank s.toList

/-- The rest of `cs` after `lead`, if `cs` begins with it. -/
def after? : List Char → List Char → Option (List Char)
  | [], cs => some cs
  | _ :: _, [] => none
  | l :: ls, c :: cs => if l = c then after? ls cs else none

theorem isBlank_of_isBreak {c : Char} (h : isBreak c = true) : isBlank c = true := by
  simp only [isBreak, Bool.or_eq_true, decide_eq_true_eq] at h
  rcases h with rfl | rfl <;> decide

theorem line_append (cs : List Char) : (line cs).1 ++ (line cs).2 = cs :=
  List.takeWhile_append_dropWhile

theorem line_rest_length_le (cs : List Char) : (line cs).2.length ≤ cs.length :=
  (List.dropWhile_sublist _).length_le

theorem after?_eq_some {lead cs rest : List Char} :
    after? lead cs = some rest ↔ cs = lead ++ rest := by
  induction lead generalizing cs with
  | nil => simp [after?, eq_comm]
  | cons l ls ih =>
    cases cs with
    | nil => simp [after?]
    | cons c cs =>
      by_cases h : l = c
      · simp [after?, h, ih]
      · simp [after?, h, Ne.symm h]

end SqlBatch.Text
