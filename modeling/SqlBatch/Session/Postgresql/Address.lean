import SqlBatch.Json.Parser
import SqlBatch.Text.Natural

/-! The numbers of hosts in a network: four numbers with dots between them, or eight groups of
hexadecimal digits with colons between them, of which two colons may leave some out and of which
four numbers may be the last two. -/

namespace SqlBatch.Session.Postgresql.Address

def isByte (cs : List Char) : Bool :=
  cs.length ≤ 3 && cs.all Char.isDigit && (cs.length = 1 || cs.head? ≠ some '0') &&
    (Text.natural? 255 cs).isSome

def isFourNumbers (cs : List Char) : Bool :=
  let parts := cs.splitOn '.'
  parts.length = 4 && parts.all isByte

def isGroup (cs : List Char) : Bool :=
  1 ≤ cs.length && cs.length ≤ 4 && cs.all fun c => (Json.hexValue? c).isSome

/-- How many groups there are, if all of them are groups; `mixed` allows four numbers at the end. -/
def groups? (mixed : Bool) : List (List Char) → Option Nat
  | [] => some 0
  | [g] => if isGroup g then some 1 else if mixed && isFourNumbers g then some 2 else none
  | g :: gs => if isGroup g then (groups? mixed gs).map (· + 1) else none

def groupsOf (cs : List Char) : List (List Char) := if cs.isEmpty then [] else cs.splitOn ':'

def splitGap? : List Char → Option (List Char × List Char)
  | ':' :: ':' :: cs => some ([], cs)
  | c :: cs => (splitGap? cs).map fun r => (c :: r.1, r.2)
  | [] => none

def isGroups (cs : List Char) : Bool :=
  match splitGap? cs with
  | none => groups? true (cs.splitOn ':') = some 8
  | some (front, behind) =>
    match groups? false (groupsOf front), groups? true (groupsOf behind) with
    | some m, some n => m + n ≤ 7
    | _, _ => false

def isAddress (text : String) : Bool := isFourNumbers text.toList || isGroups text.toList

end SqlBatch.Session.Postgresql.Address
