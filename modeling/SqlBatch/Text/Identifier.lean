/-! Quoted identifiers: a name between two quotation marks of one kind, with every mark inside it
written twice. The reader takes two marks in a row as one and a single mark as the end; it recovers
the name and stops where the written identifier stops (`read?_write`). -/

namespace SqlBatch.Text.Identifier

def double (mark : Char) : List Char → List Char
  | [] => []
  | c :: cs => if c = mark then mark :: mark :: double mark cs else c :: double mark cs

def write (mark : Char) (name : List Char) : List Char := mark :: (double mark name ++ [mark])

/-- Reads up to the first mark that stands alone: the name, and what follows the mark. -/
def readInside? (mark : Char) : List Char → Option (List Char × List Char)
  | [] => none
  | [c] => if c = mark then some ([], []) else none
  | c :: d :: cs =>
    if c = mark then
      if d = mark then (readInside? mark cs).map fun r => (mark :: r.1, r.2)
      else some ([], d :: cs)
    else (readInside? mark (d :: cs)).map fun r => (c :: r.1, r.2)

def read? (mark : Char) : List Char → Option (List Char × List Char)
  | [] => none
  | c :: cs => if c = mark then readInside? mark cs else none

theorem readInside?_double (mark : Char) (name rest : List Char) (h : rest.head? ≠ some mark) :
    readInside? mark (double mark name ++ mark :: rest) = some (name, rest) := by
  induction name with
  | nil => cases rest <;> simp_all [double, readInside?]
  | cons c cs ih =>
    by_cases hc : c = mark
    · simp [double, readInside?, hc, ih]
    · cases hd : double mark cs ++ mark :: rest with
      | nil => simp at hd
      | cons d ds => simp_all [double, readInside?]

theorem read?_write (mark : Char) (name rest : List Char) (h : rest.head? ≠ some mark) :
    read? mark (write mark name ++ rest) = some (name, rest) := by
  simp [read?, write, readInside?_double mark name rest h]

def quote (mark : Char) (name : String) : String := String.ofList (write mark name.toList)

end SqlBatch.Text.Identifier
