import SqlBatch.Run.Event
import SqlBatch.Text.Alphanumeric
import SqlBatch.Text.Cut
import SqlBatch.Text.Natural

/-! Filters: which notes are shown. A filter is a text of rules with commas between them, such as
`warn,part=debug,part[{file}]=trace`. A rule holds for the notes of a part of the program that
have certain fields, and says how grave they have to be; a note is judged by the most specific rule
that holds for it. Rules about the span a note is in, or about the value of a field, hold for no
note, since no note is in a span. A text with a mistake in it is not a filter at all. -/

namespace SqlBatch.Cli

open Run

def gravity : Level → Nat
  | .error => 1
  | .warn => 2
  | .info => 3
  | .debug => 4

def partOf : Note → String
  | .tokenized .. => "sqlscriptrunner::processor"
  | .starting _ | .cannotSwitch .. | .settingDatabase _ | .databaseSet | .switchFailed _
  | .executing .. | .skippingBlank _ | .executed .. | .statementFailed .. | .finished .. =>
    "sqlscriptrunner::executor"
  | .openingSqlite _ | .sqliteOverran _ | .closingSqlite | .sqliteStillInUse =>
    "sqlscriptrunner::runner_sqlite"
  | .connectingMysql .. | .mysqlEstablished _ | .closingMysql => "sqlscriptrunner::runner_mysql"
  | .connectingPostgresql .. | .postgresqlLost _ | .cancelFailed _ | .closingPostgresql =>
    "sqlscriptrunner::runner_postgresql"
  | .someFailed _ => "sqlscript"

def everything : Nat := 5

/-- How many levels, from the gravest on, the name or number of a level lets through. -/
def depth? (text : String) : Option Nat :=
  match Text.natural? everything text.toList with
  | some n => some n
  | none =>
    ["off", "error", "warn", "info", "debug", "trace"].idxOf?
      (String.ofList (text.toList.map Char.toLower))

structure Rule where
  target : Option String := none
  span : Option String := none
  fields : List (String × Option String) := []
  depth : Nat := everything
  deriving DecidableEq, Repr

/-! Reading a rule. Places are counted in bytes behind the blank characters that the rule begins
with, and the pieces are cut out at these places of the whole text, blank characters included. -/

inductive Stage where
  | start
  | name (place : Nat)
  | span (place : Nat)
  | field (place : Nat)
  | behindField
  | behindSpan
  | level (place : Nat)
  deriving DecidableEq, Repr

structure RuleReading where
  rule : Rule := {}
  stage : Stage := .start
  deriving DecidableEq, Repr

def piece (text : List Char) (first last : Nat) : String :=
  String.ofList (Text.takeBytes (last - first) (Text.dropBytes first text))

def fieldOf (text : String) : String × Option String :=
  match text.toList.splitOn '=' with
  | name :: value :: _ => (String.ofList name, some (String.ofList value))
  | _ => (text, none)

namespace RuleReading

def step (text : List Char) (r : RuleReading) (place : Nat) (c : Char) : Option RuleReading :=
  let rule := r.rule
  match r.stage with
  | .start =>
    if c = '[' then some { r with stage := .span (place + 1) }
    else if c = '-' ∨ c = ':' ∨ c = '_' ∨ Text.isAlphanumeric c then
      some { r with stage := .name place }
    else none
  | .name first =>
    let named := { rule with target := some (piece text first place) }
    if c = '=' then some ⟨named, .level (place + 1)⟩
    else if c = '[' then some ⟨named, .span (place + 1)⟩
    else some r
  | .span first =>
    let span := piece text first place
    if c = ']' then some ⟨{ rule with span := some span }, .behindSpan⟩
    else if c = '{' then
      some ⟨{ rule with span := if span.isEmpty then none else some span }, .field (place + 1)⟩
    else some r
  | .field first =>
    let field := piece text first place
    if c ≠ '}' then some r
    else if field.isEmpty then none
    else some ⟨{ rule with fields := rule.fields ++ [fieldOf field] }, .behindField⟩
  | .behindField => if c = ']' then some { r with stage := .behindSpan } else none
  | .behindSpan => if c = '=' then some { r with stage := .level (place + 1) } else none
  | .level _ => some r

def steps (text : List Char) (r : RuleReading) (place : Nat) : List Char → Option RuleReading
  | [] => some r
  | c :: cs => (r.step text place c).bind fun r => steps text r (place + c.utf8Size) cs

def finish (text : List Char) (r : RuleReading) : Option Rule :=
  let rest (first : Nat) : String := String.ofList (Text.dropBytes first text)
  match r.stage with
  | .name first =>
    match depth? (rest first) with
    | some depth => some { r.rule with depth := depth }
    | none => some { r.rule with target := some (rest first) }
  | .level first =>
    if (rest first).isEmpty then some r.rule
    else (depth? (rest first)).map fun depth => { r.rule with depth := depth }
  | .behindSpan => some r.rule
  | .start | .span _ | .field _ | .behindField => none

end RuleReading

namespace Rule

def read? (text : List Char) : Option Rule :=
  (RuleReading.steps text {} 0 (Text.trim text)).bind (RuleReading.finish text)

def isPlain (r : Rule) : Bool := r.span.isNone && r.fields.all (·.2.isNone)

def fieldNames (r : Rule) : List String := r.fields.map (·.1)

def holdsFor (r : Rule) (n : Note) : Bool :=
  r.isPlain && r.target.all (fun t => t.toList.isPrefixOf (partOf n).toList) &&
    r.fieldNames.all fun f => f = "message" || (n.fields.map (·.1)).contains f

def reach (r : Rule) : Nat := r.target.elim 0 fun t => t.utf8ByteSize + 1

/-- Whether `a` is less specific than `b`, of two rules that hold for one note: it has the shorter
target or, with the same target, fewer fields or, with as many, names that come earlier. -/
def below (a b : Rule) : Bool :=
  a.reach < b.reach || (a.reach = b.reach &&
    (a.fields.length < b.fields.length ||
      (a.fields.length = b.fields.length && decide (a.fieldNames < b.fieldNames))))

/-- The more specific of two rules; the later one, if they are about the same. -/
def prefer (best : Option Rule) (r : Rule) : Option Rule :=
  match best with
  | some b => if r.below b then some b else some r
  | none => some r

end Rule

abbrev Filter := List Rule

namespace Filter

def standard : Filter := [{ depth := gravity .info }]

def read? (text : String) : Option Filter :=
  ((text.toList.splitOn ',').filter (!·.isEmpty)).mapM Rule.read?

def ofText (text : Option String) : Filter := (text.bind read?).getD standard

def ruleFor? (f : Filter) (n : Note) : Option Rule :=
  (f.filter (·.holdsFor n)).foldl Rule.prefer none

def shows (f : Filter) (n : Note) : Bool := (f.ruleFor? n).any fun r => gravity n.level ≤ r.depth

end Filter
end SqlBatch.Cli
