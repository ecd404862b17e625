import SqlBatch.Script.Directive
import SqlBatch.Script.Statement

/-! Scripts read as whole lexical items, without a state inside an item. At each place the first
kind that applies is taken: an escaped character, a block comment with the comments nested in it, a
line comment, a quoted literal, a directive where one may stand, the delimiter in force, and else a
single character. Line comments and directives are dropped, the delimiter closes a statement, and
everything else is kept. -/

namespace SqlBatch.Script

open Text

inductive Item where
  | escaped (text : List Char)
  | block (text : List Char)
  | lineComment (text : List Char)
  | literal (text : List Char)
  | directive (text token : List Char)
  | delimiter (text : List Char)
  | character (c : Char)
  deriving DecidableEq, Repr

namespace Item

def text : Item → List Char
  | escaped cs | block cs | lineComment cs | literal cs | directive cs _ | delimiter cs => cs
  | character c => [c]

/-- The characters of a block comment behind its opening marker, while `depth` comments are open
around the innermost one; and what follows the comment. -/
def blockBody : Nat → List Char → List Char × List Char
  | _, [] => ([], [])
  | depth, '/' :: '*' :: cs =>
    let (body, rest) := blockBody (depth + 1) cs
    ('/' :: '*' :: body, rest)
  | 0, '*' :: '/' :: cs => (['*', '/'], cs)
  | depth + 1, '*' :: '/' :: cs =>
    let (body, rest) := blockBody depth cs
    ('*' :: '/' :: body, rest)
  | depth, c :: cs =>
    let (body, rest) := blockBody depth cs
    (c :: body, rest)

/-- The characters of a literal behind its opening quote, up to the next quote that no backslash
escapes; and what follows the literal. -/
def literalBody (quote : Char) : List Char → List Char × List Char
  | [] => ([], [])
  | '\\' :: c :: cs =>
    let (body, rest) := literalBody quote cs
    ('\\' :: c :: body, rest)
  | c :: cs =>
    if c = quote then ([c], cs)
    else
      let (body, rest) := literalBody quote cs
      (c :: body, rest)

def opensLineComment (c : Char) (cs : List Char) : Bool :=
  (c = '#' && cs.head?.any isSpaceOrTab) ||
    (c = '-' && cs.head? = some '-' && cs.tail.head?.any isSpaceOrTab)

def opensLiteral (c : Char) : Bool := c = '\'' || c = '"' || c = '`'

def read (active : List Char) (mayRedefine : Bool) (c : Char) (cs : List Char) :
    Item × List Char :=
  if c = '\\' then (escaped (c :: cs.take 1), cs.drop 1)
  else if c = '/' ∧ cs.head? = some '*' then
    (block ('/' :: '*' :: (blockBody 0 cs.tail).1), (blockBody 0 cs.tail).2)
  else if opensLineComment c cs then (lineComment (c :: (line cs).1), (line cs).2)
  else if opensLiteral c then (literal (c :: (literalBody c cs).1), (literalBody c cs).2)
  else
    match if mayRedefine then Directive.read? (c :: cs) else none with
    | some d => (directive ((c :: cs).take ((c :: cs).length - d.rest.length)) d.token, d.rest)
    | none =>
      match if active.isEmpty then none else after? active (c :: cs) with
      | some rest => (delimiter active, rest)
      | none => (character c, cs)

theorem blockBody_append (depth : Nat) (cs : List Char) :
    (blockBody depth cs).1 ++ (blockBody depth cs).2 = cs := by
  fun_induction blockBody depth cs <;> simp_all

theorem literalBody_append (quote : Char) (cs : List Char) :
    (literalBody quote cs).1 ++ (literalBody quote cs).2 = cs := by
  fun_induction literalBody quote cs <;> simp_all

theorem blockBody_rest_length_le (depth : Nat) (cs : List Char) :
    (blockBody depth cs).2.length ≤ cs.length := by
  have h := congrArg List.length (blockBody_append depth cs)
  rw [List.length_append] at h
  omega

theorem literalBody_rest_length_le (quote : Char) (cs : List Char) :
    (literalBody quote cs).2.length ≤ cs.length := by
  have h := congrArg List.length (literalBody_append quote cs)
  rw [List.length_append] at h
  omega

theorem read_rest_length_le (active : List Char) (mayRedefine : Bool) (c : Char)
    (cs : List Char) : (read active mayRedefine c cs).2.length ≤ cs.length := by
  unfold read
  split
  · simp
  · split
    · have := blockBody_rest_length_le 0 cs.tail
      simp only [List.length_tail] at this
      simp only
      omega
    · split
      · exact line_rest_length_le cs
      · split
        · exact literalBody_rest_length_le c cs
        · split
          · rename_i d hd
            split at hd
            · have := Directive.read?_length hd
              simp only [List.length_cons] at this
              simp only
              omega
            · simp at hd
          · split
            · rename_i rest hrest
              split at hrest
              · simp at hrest
              · rename_i hactive
                have h := congrArg List.length (after?_eq_some.1 hrest)
                have hpos : 0 < active.length := by
                  rw [List.length_pos_iff]
                  simpa using hactive
                simp only [List.length_cons, List.length_append] at h
                simp only
                omega
            · exact Nat.le_refl _

def guarded : Item → Nat
  | escaped cs => cs.length
  | literal cs => guardedIn cs.tail 1 0
  | _ => 0
where
  /-- The place behind the last escaped character, `place` being that of the first one here. -/
  guardedIn : List Char → Nat → Nat → Nat
    | '\\' :: _ :: cs, place, _ => guardedIn cs (place + 2) (place + 2)
    | _ :: cs, place, last => guardedIn cs (place + 1) last
    | [], _, last => last

end Item

structure Kept where
  guarded : List Char := []
  loose : List Char := []
  deriving DecidableEq, Repr

namespace Kept

def text (k : Kept) : List Char := k.guarded ++ k.loose

def add (k : Kept) (i : Item) : Kept :=
  if i.guarded = 0 then { k with loose := k.loose ++ i.text }
  else ⟨k.text ++ i.text.take i.guarded, i.text.drop i.guarded⟩

def trimmed (k : Kept) : List Char := trimStart (k.guarded ++ trimEnd k.loose)

end Kept

/-- Whether only spaces and tabs stand between a place and the start of its line; `before` is the
script up to there, the latest character first. -/
def startsLine (before : List Char) : Bool :=
  match before.dropWhile isSpaceOrTab with
  | [] => true
  | c :: _ => isBreak c

structure Items where
  active : List Char
  before : List Char := []
  kept : Kept := {}
  statements : Array Statement := #[]

namespace Items

def start (delimiter : String) : Items :=
  { active := if delimiter.isEmpty then Statement.defaultDelimiter.toList else delimiter.toList }

def close (s : Items) : Items :=
  { s with
    kept := {}
    statements := s.statements.push
      ⟨s.statements.size + 1, String.ofList s.kept.trimmed, String.ofList s.active⟩ }

def add (s : Items) (i : Item) : Items :=
  let s := { s with before := i.text.reverse ++ s.before }
  match i with
  | .lineComment _ => s
  | .directive _ token => if token.isEmpty then s else { s with active := token }
  | .delimiter _ => s.close
  | kept => { s with kept := s.kept.add kept }

def mayRedefine (s : Items) : Bool := startsLine s.before || allBlank s.kept.text

def scan (s : Items) : List Char → Items
  | [] => s
  | c :: cs =>
    let next := Item.read s.active s.mayRedefine c cs
    scan (s.add next.1) next.2
termination_by cs => cs.length
decreasing_by
  have := Item.read_rest_length_le s.active s.mayRedefine c cs
  simp only [List.length_cons]
  omega

def finish (s : Items) : List Statement :=
  (if allBlank s.kept.text then s else s.close).statements.toList

end Items

def splitItems (script delimiter : String) : List Statement :=
  ((Items.start delimiter).scan script.toList).finish

end SqlBatch.Script
