import SqlBatch.Text.Cut

/-! Tokens of SQLite's SQL. A token is read off the front of a text; it is as long as it can be, and
every character belongs to one token, so blank space and comments are tokens too. What cannot be
read is a token of its own kind, and it reaches as far as what it looked like would have. -/

namespace SqlBatch.Session.Sqlite

inductive Kind where
  | blank
  | separator
  | word
  | name
  | value
  | mark
  | unreadable
  deriving DecidableEq, Repr

structure Token where
  kind : Kind
  place : Nat
  text : List Char
  deriving DecidableEq, Repr

def isWordChar (c : Char) : Bool := c.isAlphanum || c = '_' || c = '$' || 128 ≤ c.toNat

def isSpace (c : Char) : Bool :=
  c = ' ' || c = '\t' || c = '\n' || c = '\r' || c = '\x0c'

def isInnerSpace (c : Char) : Bool := isSpace c || c = '\x0b'

def isHexDigit (c : Char) : Bool :=
  c.isDigit || ('a' ≤ c && c ≤ 'f') || ('A' ≤ c && c ≤ 'F')

def runLength (p : Char → Bool) (cs : List Char) : Nat := (cs.takeWhile p).length

/-- The length of a block comment, from its inside on; one that is not closed goes to the end. -/
def blockLength : List Char → Nat
  | [] => 0
  | '*' :: '/' :: _ => 2
  | _ :: cs => blockLength cs + 1

def digitsLength (isDigit : Char → Bool) (cs : List Char) : Nat :=
  runLength (fun c => isDigit c || c = '_') cs

def fractionLength : List Char → Nat
  | '.' :: cs => digitsLength Char.isDigit cs + 1
  | _ => 0

def exponentLength : List Char → Nat
  | e :: s :: cs =>
    if (e = 'e' || e = 'E') &&
        (s.isDigit || ((s = '+' || s = '-') && cs.head?.any Char.isDigit)) then
      digitsLength Char.isDigit cs + 2
    else 0
  | _ => 0

def decimalLength (cs : List Char) : Nat :=
  let whole := digitsLength Char.isDigit cs
  let mantissa := whole + fractionLength (cs.drop whole)
  mantissa + exponentLength (cs.drop mantissa)

def numberLength (cs : List Char) : Nat :=
  match cs with
  | '0' :: x :: d :: ds =>
    if (x = 'x' || x = 'X') && isHexDigit d then digitsLength isHexDigit ds + 3
    else decimalLength cs
  | _ => decimalLength cs

def number (cs : List Char) : Kind × Nat :=
  let digits := numberLength cs
  let word := runLength isWordChar (cs.drop digits)
  (if word = 0 then .value else .unreadable, digits + word)

/-- The length of a quoted piece from behind its first mark on; a mark inside is written twice. -/
def quotedLength? (mark : Char) : List Char → Option Nat
  | [] => none
  | [c] => if c = mark then some 1 else none
  | c :: d :: cs =>
    if c = mark then
      if d = mark then (quotedLength? mark cs).map (· + 2) else some 1
    else (quotedLength? mark (d :: cs)).map (· + 1)

def quotedPiece (mark : Char) (kind : Kind) (cs : List Char) : Kind × Nat :=
  match quotedLength? mark cs with
  | some n => (kind, n + 1)
  | none => (.unreadable, cs.length + 1)

def bracketed (cs : List Char) : Kind × Nat :=
  let n := runLength (· ≠ ']') cs
  if n < cs.length then (.name, n + 2) else (.unreadable, n + 1)

def blob (cs : List Char) : Kind × Nat :=
  let digits := runLength isHexDigit cs
  let inside := runLength (· ≠ '\'') cs
  (if digits = inside && inside < cs.length && digits % 2 = 0 then .value else .unreadable,
    min (inside + 3) (cs.length + 2))

def parameter (cs : List Char) : Kind × Nat :=
  let name := runLength isWordChar cs
  (if name = 0 then .unreadable else .value, name + 1)

def longMarks : List (List Char) :=
  ["->>".toList, "->".toList, "==".toList, "<=".toList, "<>".toList, "<<".toList, ">=".toList,
    ">>".toList, "!=".toList, "||".toList]

def shortMarks : List Char :=
  ['(', ')', '+', '-', '*', '/', '%', '=', '<', '>', '|', ',', '&', '~', '.']

def markOf (c : Char) (cs : List Char) : Kind × Nat :=
  match longMarks.find? (·.isPrefixOf (c :: cs)) with
  | some mark => (.mark, mark.length)
  | none => (if shortMarks.contains c then .mark else .unreadable, 1)

def isByteOrderMark (c : Char) : Bool := c = '\uFEFF'

/-- The kind and the length of the token that begins with `c`. -/
def next (c : Char) (cs : List Char) : Kind × Nat :=
  if isSpace c then (.blank, runLength isInnerSpace cs + 1)
  else if isByteOrderMark c then (.blank, 1)
  else if c = ';' then (.separator, 1)
  else if c.isDigit || (c = '.' && cs.head?.any Char.isDigit) then number (c :: cs)
  else if c = '\'' || c = '"' then quotedPiece c .value cs
  else if c = '\x60' then quotedPiece c .name cs
  else if c = '[' then bracketed cs
  else if c = '?' then (.value, runLength Char.isDigit cs + 1)
  else if c = '$' || c = '@' || c = ':' then parameter cs
  else if c = '#' then
    if cs.head?.any Char.isDigit then (.mark, runLength isWordChar cs + 1) else parameter cs
  else if c = '-' && cs.head? = some '-' then (.blank, runLength (· ≠ '\n') cs + 1)
  else if c = '/' && cs.head? = some '*' && !cs.tail.isEmpty then
    (.blank, blockLength cs.tail + 2)
  else if (c = 'x' || c = 'X') && cs.head? = some '\'' then blob cs.tail
  else if isWordChar c then (.word, runLength isWordChar cs + 1)
  else markOf c cs

def tokensFrom (place : Nat) : Nat → List Char → List Token
  | 0, _ | _ + 1, [] => []
  | fuel + 1, c :: cs =>
    let (kind, length) := next c cs
    let text := c :: cs.take (length - 1)
    ⟨kind, place, text⟩ :: tokensFrom (place + Text.byteSize text) fuel (cs.drop (length - 1))

def tokens (text : List Char) : List Token := tokensFrom 0 text.length text

end SqlBatch.Session.Sqlite
