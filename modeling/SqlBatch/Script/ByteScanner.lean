import SqlBatch.Script.Scanner
import SqlBatch.Text.Cut

/-! The scanner with flags and bytes. What `Scanner` holds as one context and two parts of kept text
is spelled out here: an open quotation mark, a pending escape, a count of open comments, one text,
and the place in it behind its last escaped character. A step says how many bytes it has read, and
the next one starts behind those. Every place is worked out in bytes from what was matched. Nothing
in the types keeps a place between two characters, and a bad one stops the scan; nor is a delimiter
kept from being empty, and under an empty one a step reads nothing. -/

namespace SqlBatch.Script

open Text

structure ByteScanner where
  delimiter : List Char
  quote : Option Char := none
  escaped : Bool := false
  commentDepth : Nat := 0
  lineStart : Bool := true
  /-- The size of the kept text up to its last escaped character. -/
  escapeFloor : Nat := 0
  current : List Char := []
  statements : Array Statement := #[]
  deriving Repr

namespace ByteScanner

def start (delimiter : String) : ByteScanner :=
  { delimiter := if delimiter.isEmpty then Statement.defaultDelimiter.toList else delimiter.toList }

def push (s : ByteScanner) (c : Char) : ByteScanner :=
  { s with lineStart := Scanner.lineStartAfter c s.lineStart, current := s.current ++ [c] }

def pushMarker (s : ByteScanner) (marker : List Char) : ByteScanner :=
  { s with lineStart := false, current := s.current ++ marker }

/-- Closes the statement in progress. Its end is trimmed down to the escape floor and no further. -/
def commit (s : ByteScanner) : Except BadPlace ByteScanner := do
  let loose ← behind s.escapeFloor s.current
  let sql ← upTo (s.escapeFloor + byteSize (trimEnd loose)) s.current
  return { s with
    current := [], escapeFloor := 0
    statements := s.statements.push
      ⟨s.statements.size + 1, String.ofList (trimStart sql), String.ofList s.delimiter⟩ }

def markerSize? (rest : List Char) : Option Nat :=
  if ['-', '-'].isPrefixOf rest then some 2
  else if ['#'].isPrefixOf rest then some 1
  else none

def startsLineComment (rest : List Char) : Except BadPlace Bool :=
  match markerSize? rest with
  | none => .ok false
  | some size => (behind size rest).map fun after => after.head?.any isSpaceOrTab

def terminatorSize (rest : List Char) : Nat :=
  if ['\r', '\n'].isPrefixOf rest then 2 else if rest.isEmpty then 0 else 1

def redefine (s : ByteScanner) (token : List Char) : ByteScanner :=
  { s with delimiter := if token.isEmpty then s.delimiter else token, lineStart := true }

/-- Takes the directive that starts here, if one does; with its size. Where the bytes of the keyword
would end inside a character there is none. -/
def directive (s : ByteScanner) (rest : List Char) :
    Except BadPlace (Option (ByteScanner × Nat)) :=
  match upTo (byteSize keyword) rest with
  | .error _ => .ok none
  | .ok word =>
    if word.map Char.toLower ≠ keyword then .ok none
    else if !s.lineStart && !allBlank s.current then .ok none
    else do
      let after ← behind (byteSize keyword) rest
      if after.head?.any (!isBlank ·) then return none
      else
        let lineSize := (breakPlace? after).getD (byteSize after)
        let name ← upTo lineSize after
        let terminator ← behind lineSize after
        return some (s.redefine (trim name),
          byteSize keyword + lineSize + terminatorSize terminator)

def stepComment (s : ByteScanner) (c : Char) (rest : List Char) : ByteScanner × Nat :=
  if ['/', '*'].isPrefixOf rest then
    ({ s with commentDepth := s.commentDepth + 1 }.pushMarker ['/', '*'], 2)
  else if ['*', '/'].isPrefixOf rest then
    ({ s with commentDepth := s.commentDepth - 1 }.pushMarker ['*', '/'], 2)
  else (s.push c, c.utf8Size)

def stepLiteral (s : ByteScanner) (quote c : Char) : ByteScanner :=
  if c = '\\' then { s with escaped := true }.push c
  else if c = quote then { s with quote := none }.push c
  else s.push c

def stepBare (s : ByteScanner) (c : Char) (rest : List Char) :
    Except BadPlace (ByteScanner × Nat) := do
  match ← s.directive rest with
  | some taken => return taken
  | none =>
    if s.delimiter.isPrefixOf rest then return (← s.commit, byteSize s.delimiter)
    else return (s.push c, c.utf8Size)

def stepPlain (s : ByteScanner) (c : Char) (rest : List Char) :
    Except BadPlace (ByteScanner × Nat) :=
  if c = '\\' then .ok ({ s with escaped := true }.push c, c.utf8Size)
  else if ['/', '*'].isPrefixOf rest then
    .ok ({ s with commentDepth := 1 }.pushMarker ['/', '*'], 2)
  else do
    if ← startsLineComment rest then return (s, (breakPlace? rest).getD (byteSize rest))
    else if Scanner.isQuote c then return ({ s with quote := some c }.push c, c.utf8Size)
    else s.stepBare c rest

def stepEscaped (s : ByteScanner) (c : Char) : ByteScanner :=
  let kept := { s with escaped := false }.push c
  { kept with escapeFloor := byteSize kept.current }

def step (s : ByteScanner) : List Char → Except BadPlace (ByteScanner × Nat)
  | [] => .ok (s, 0)
  | c :: cs =>
    if s.escaped then .ok (s.stepEscaped c, c.utf8Size)
    else if 0 < s.commentDepth then .ok (s.stepComment c (c :: cs))
    else
      match s.quote with
      | some quote => .ok (s.stepLiteral quote c, c.utf8Size)
      | none => s.stepPlain c (c :: cs)

def advance (script : List Char) (s : ByteScanner) (place : Nat) :
    Except BadPlace (ByteScanner × Nat) := do
  let rest ← behind place script
  let (s', size) ← s.step rest
  return (s', place + size)

/-- A loop of `n` steps leads from `s` at `place` to `s'` at `place'`. It goes on as long as the
place is in front of the end of the script. -/
inductive Steps (script : List Char) : ByteScanner → Nat → Nat → ByteScanner → Nat → Prop where
  | refl (s : ByteScanner) (place : Nat) : Steps script s place 0 s place
  | step {s s₁ s' : ByteScanner} {place place₁ place' n : Nat} (hplace : place < byteSize script)
      (hadvance : s.advance script place = .ok (s₁, place₁))
      (h : Steps script s₁ place₁ n s' place') : Steps script s place (n + 1) s' place'

def finish (s : ByteScanner) : Except BadPlace (List Statement) :=
  if allBlank s.current then .ok s.statements.toList
  else s.commit.map fun closed => closed.statements.toList

end ByteScanner
end SqlBatch.Script
