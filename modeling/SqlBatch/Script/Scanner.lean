import SqlBatch.Script.Directive
import SqlBatch.Script.Statement

/-! Splitting a script into statements: one pass, one character at a time, in one of four contexts.
An escaped character is always literal; a block comment hides everything but its own markers; a
quoted literal hides comments, directives and delimiters; only plain text can start a directive or
close a statement.

The kept text of the statement in progress is held in two parts, newest character first: `guarded`,
which ends with the last escaped character and is never trimmed at its end, and `loose`, all kept
since. Every step shortens the unread text (`step_rest_length_le`), so the scan ends. -/

namespace SqlBatch.Script

open Text

inductive Context where
  | plain
  /-- Right after a backslash, in plain text or inside a literal. -/
  | escape (inside : Option Char)
  | literal (quote : Char)
  | comment (enclosing : Nat)
  deriving DecidableEq, Repr

structure Scanner where
  delimiter : List Char
  context : Context := .plain
  /-- Only spaces and tabs were kept since the last line break, or since the script's start. -/
  lineStart : Bool := true
  guarded : List Char := []
  loose : List Char := []
  statements : Array Statement := #[]
  deriving Repr

namespace Scanner

def start (delimiter : String) : Scanner :=
  { delimiter := if delimiter.isEmpty then Statement.defaultDelimiter.toList else delimiter.toList }

def current (s : Scanner) : List Char := (s.loose ++ s.guarded).reverse

def isBlank (s : Scanner) : Bool := allBlank s.loose && allBlank s.guarded

def lineStartAfter (c : Char) (before : Bool) : Bool :=
  if isBreak c then true else if isSpaceOrTab c then before else false

def keep (s : Scanner) (c : Char) : Scanner :=
  { s with lineStart := lineStartAfter c s.lineStart, loose := c :: s.loose }

def keepMarker (s : Scanner) (first second : Char) : Scanner :=
  { s with lineStart := false, loose := second :: first :: s.loose }

/-- Keeps an escaped character; all kept so far is then safe from trimming at its end. -/
def keepEscaped (s : Scanner) (c : Char) : Scanner :=
  { s with lineStart := lineStartAfter c s.lineStart, guarded := c :: (s.loose ++ s.guarded),
           loose := [] }

def sql (s : Scanner) : String :=
  String.ofList (trimStart (s.loose.dropWhile Text.isBlank ++ s.guarded).reverse)

def commit (s : Scanner) : Scanner :=
  { s with
    guarded := [], loose := []
    statements := s.statements.push ⟨s.statements.size + 1, s.sql, String.ofList s.delimiter⟩ }

def redefine (s : Scanner) (token : List Char) : Scanner :=
  { s with delimiter := if token.isEmpty then s.delimiter else token, lineStart := true }

/-- A comment marker: two hyphens or a number sign, with a space or a tab right after. -/
def startsLineComment : Char → List Char → Bool
  | '#', c :: _ => isSpaceOrTab c
  | '-', '-' :: c :: _ => isSpaceOrTab c
  | _, _ => false

def isQuote (c : Char) : Bool := c = '\'' || c = '"' || c = '`'

def directive? (s : Scanner) (cs : List Char) : Option Directive :=
  match Directive.read? cs with
  | some d => if s.lineStart || s.isBlank then some d else none
  | none => none

def afterDelimiter? (s : Scanner) (c : Char) (cs : List Char) : Option (List Char) :=
  match s.delimiter with
  | [] => none
  | d :: ds => if d = c then after? ds cs else none

def stepBare (s : Scanner) (c : Char) (cs : List Char) : Scanner × List Char :=
  match s.directive? (c :: cs) with
  | some d => (s.redefine d.token, d.rest)
  | none =>
    match s.afterDelimiter? c cs with
    | some rest => (s.commit, rest)
    | none => (s.keep c, cs)

def stepPlain (s : Scanner) (c : Char) (cs : List Char) : Scanner × List Char :=
  if c = '\\' then ({ s.keep c with context := .escape none }, cs)
  else if c = '/' ∧ cs.head? = some '*' then
    ({ s.keepMarker '/' '*' with context := .comment 0 }, cs.tail)
  else if startsLineComment c cs then (s, (line cs).2)
  else if isQuote c then ({ s.keep c with context := .literal c }, cs)
  else s.stepBare c cs

def stepLiteral (s : Scanner) (quote c : Char) : Scanner :=
  { s.keep c with
    context :=
      if c = '\\' then .escape (some quote) else if c = quote then .plain else .literal quote }

def leave : Nat → Context
  | 0 => .plain
  | n + 1 => .comment n

def stepComment (s : Scanner) (enclosing : Nat) (c : Char) (cs : List Char) :
    Scanner × List Char :=
  if c = '/' ∧ cs.head? = some '*' then
    ({ s.keepMarker '/' '*' with context := .comment (enclosing + 1) }, cs.tail)
  else if c = '*' ∧ cs.head? = some '/' then
    ({ s.keepMarker '*' '/' with context := leave enclosing }, cs.tail)
  else (s.keep c, cs)

def resume : Option Char → Context
  | none => .plain
  | some quote => .literal quote

def step (s : Scanner) (c : Char) (cs : List Char) : Scanner × List Char :=
  match s.context with
  | .plain => s.stepPlain c cs
  | .escape inside => ({ s.keepEscaped c with context := resume inside }, cs)
  | .literal quote => (s.stepLiteral quote c, cs)
  | .comment enclosing => s.stepComment enclosing c cs

theorem stepBare_rest_length_le (s : Scanner) (c : Char) (cs : List Char) :
    (s.stepBare c cs).2.length ≤ cs.length := by
  unfold stepBare
  split
  · rename_i d hd
    have hread : Directive.read? (c :: cs) = some d := by
      unfold directive? at hd
      grind
    have := Directive.read?_length hread
    simp only [List.length_cons] at this
    simp only
    omega
  · split
    · rename_i rest hrest
      unfold afterDelimiter? at hrest
      split at hrest
      · simp at hrest
      · split at hrest
        · have := after?_eq_some.1 hrest
          simp [this]
        · simp at hrest
    · exact Nat.le_refl _

theorem stepPlain_rest_length_le (s : Scanner) (c : Char) (cs : List Char) :
    (s.stepPlain c cs).2.length ≤ cs.length := by
  unfold stepPlain
  split
  · exact Nat.le_refl _
  · split
    · simp
    · split
      · exact line_rest_length_le cs
      · split
        · exact Nat.le_refl _
        · exact stepBare_rest_length_le s c cs

theorem stepComment_rest_length_le (s : Scanner) (n : Nat) (c : Char) (cs : List Char) :
    (s.stepComment n c cs).2.length ≤ cs.length := by
  unfold stepComment
  split
  · simp
  · split
    · simp
    · exact Nat.le_refl _

theorem step_rest_length_le (s : Scanner) (c : Char) (cs : List Char) :
    (s.step c cs).2.length ≤ cs.length := by
  unfold step
  split
  · exact stepPlain_rest_length_le s c cs
  · exact Nat.le_refl _
  · exact Nat.le_refl _
  · exact stepComment_rest_length_le s _ c cs

def scan (s : Scanner) : List Char → Scanner
  | [] => s
  | c :: cs =>
    let next := s.step c cs
    scan next.1 next.2
termination_by cs => cs.length
decreasing_by
  have := step_rest_length_le s c cs
  simp only [List.length_cons]
  omega

def finish (s : Scanner) : List Statement :=
  (if s.isBlank then s else s.commit).statements.toList

@[simp] theorem scan_nil (s : Scanner) : s.scan [] = s := by
  simp [scan]

theorem scan_cons (s : Scanner) (c : Char) (cs : List Char) :
    s.scan (c :: cs) = (s.step c cs).1.scan (s.step c cs).2 := by
  rw [scan]

end Scanner

/-- The statements of a script whose first delimiter is `delimiter`; an empty one stands for the
default. No text is rejected: an unclosed literal or comment extends to the end of the script. -/
def tokenize (script delimiter : String) : List Statement :=
  ((Scanner.start delimiter).scan script.toList).finish

end SqlBatch.Script
