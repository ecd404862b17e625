import SqlBatch.Session.Sqlite.Token
import SqlBatch.Text.Identifier

/-! What becomes of an SQLite text. Its commands are prepared and run one after the other; the text
of a command starts behind the separator of the one before, so empty commands in front of it belong
to it, and it is reported with all that follows. The first command that does not succeed decides.

No SQL is evaluated here. Known are commands that select expressions over constants, which succeed,
and recursive queries, which never end. Every other command is a syntax error at the first token
that does not fit. -/

namespace SqlBatch.Session.Sqlite

inductive Verdict where
  | succeeds
  | neverEnds
  | rejected (detail : String)
  deriving DecidableEq, Repr

/-- What may come next in a command; `depth` counts open parentheses. -/
inductive Expected where
  | command
  | recursion
  | nothing
  | operand (depth : Nat)
  | continuation (depth : Nat)
  | label
  | column
  deriving DecidableEq, Repr

structure Progress where
  start : Nat := 0
  expected : Expected := .command
  /-- The first name that stands for a column; there is none to be found. -/
  unknown : Option Token := none
  deriving DecidableEq, Repr

def upper (text : List Char) : String := String.ofList (text.map Char.toUpper)

def reservedWords : List String :=
  ["ADD", "ALL", "ALTER", "AND", "AS", "AUTOINCREMENT", "BETWEEN", "CASE", "CAST", "CHECK",
    "COLLATE", "COMMIT", "CONSTRAINT", "CREATE", "DEFAULT", "DEFERRABLE", "DELETE", "DISTINCT",
    "DROP", "ELSE", "ESCAPE", "EXCEPT", "EXISTS", "FOREIGN", "FROM", "GROUP", "HAVING", "IN",
    "INDEX", "INSERT", "INTERSECT", "INTO", "IS", "ISNULL", "JOIN", "LIMIT", "NOT", "NOTHING",
    "NOTNULL", "NULL", "ON", "OR", "ORDER", "PRIMARY", "RAISE", "REFERENCES", "RETURNING",
    "SELECT", "SET", "TABLE", "THEN", "TO", "TRANSACTION", "UNION", "UNIQUE", "UPDATE", "USING",
    "VALUES", "WHEN", "WHERE"]

def joiningWords : List String :=
  ["CROSS", "FULL", "GLOB", "INDEXED", "INNER", "LEFT", "LIKE", "MATCH", "NATURAL", "OUTER",
    "REGEXP", "RIGHT"]

def constantWords : List String :=
  ["NULL", "TRUE", "FALSE", "CURRENT_DATE", "CURRENT_TIME", "CURRENT_TIMESTAMP"]

def signs : List String := ["+", "-", "~"]

def operators : List String :=
  ["+", "-", "*", "/", "%", "=", "==", "<", "<=", "<>", "<<", ">", ">=", ">>", "!=", "|", "||",
    "&", "->", "->>", "AND", "OR", "IS", "LIKE", "GLOB"]

def Token.columnName (t : Token) : String :=
  String.ofList <|
    match t.kind, t.text with
    | .name, '[' :: rest => rest.dropLast
    | .name, mark :: rest => ((Text.Identifier.readInside? mark rest).map (·.1)).getD rest
    | _, text => text

def Token.isLabel (t : Token) : Bool :=
  match t.kind with
  | .word => !reservedWords.contains (upper t.text)
  | .name => true
  | .value => t.text.head? = some '\'' || t.text.head? = some '"'
  | _ => false

/-- What an error says of the place in the text of the command. -/
def located (sql : List Char) (start : Nat) (place : Nat) (what : String) : Verdict :=
  .rejected (what ++ " in " ++ String.ofList (Text.dropBytes start sql) ++ " at offset " ++
    toString (place - start))

namespace Progress

def syntaxError (p : Progress) (sql : List Char) (t : Token) : Verdict :=
  located sql p.start t.place ("near \"" ++ String.ofList t.text ++ "\": syntax error")

def expect (p : Progress) (expected : Expected) : Option Progress :=
  some { p with expected := expected }

def complete (p : Progress) (sql : List Char) : Except Verdict Unit :=
  match p.unknown with
  | none => .ok ()
  | some t => .error (located sql p.start t.place ("no such column: " ++ t.columnName))

def separate (p : Progress) (sql : List Char) (t : Token) : Except Verdict Progress :=
  match p.expected with
  | .command | .nothing => .ok p
  | .continuation 0 | .column => (p.complete sql).map fun _ => { start := t.place + 1 }
  | _ => .error (p.syntaxError sql t)

def take? (p : Progress) (t : Token) : Option Progress :=
  let text := upper t.text
  match p.expected with
  | .command =>
    if text = "SELECT" then p.expect (.operand 0)
    else if text = "WITH" then p.expect .recursion
    else none
  | .recursion => if text = "RECURSIVE" then p.expect .nothing else none
  | .nothing => some p
  | .operand depth =>
    if text = "(" then p.expect (.operand (depth + 1))
    else if signs.contains text || text = "NOT" then some p
    else if t.kind = .value || constantWords.contains text then p.expect (.continuation depth)
    else if t.kind = .name || (t.kind = .word && !reservedWords.contains text) then
      some { p with expected := .continuation depth, unknown := p.unknown <|> some t }
    else none
  | .continuation depth =>
    if operators.contains text then p.expect (.operand depth)
    else
      match depth with
      | depth + 1 => if text = ")" then p.expect (.continuation depth) else none
      | 0 =>
        if text = "," then p.expect (.operand 0)
        else if text = "AS" then p.expect .label
        else if t.isLabel && !joiningWords.contains text then p.expect .column
        else none
  | .label => if t.isLabel then p.expect .column else none
  | .column => if text = "," then p.expect (.operand 0) else none

def step (sql : List Char) (p : Progress) (t : Token) : Except Verdict Progress :=
  match t.kind with
  | .blank => .ok p
  | .separator => p.separate sql t
  | .unreadable =>
    .error (located sql p.start t.place
      ("unrecognized token: \"" ++ String.ofList t.text ++ "\""))
  | .word | .name | .value | .mark =>
    match p.take? t with
    | some p => .ok p
    | none => .error (p.syntaxError sql t)

def finish (p : Progress) (sql : List Char) : Verdict :=
  match p.expected with
  | .command => .succeeds
  | .nothing => .neverEnds
  | .continuation 0 | .column =>
    match p.complete sql with
    | .ok () => .succeeds
    | .error v => v
  | _ => .rejected "incomplete input"

end Progress

/-- What becomes of a text. It is read up to its first NUL character. -/
def judge (sql : String) : Verdict :=
  let text := sql.toList
  match (tokens (text.takeWhile (· ≠ '\x00'))).foldlM (Progress.step text) {} with
  | .ok p => p.finish text
  | .error v => v

end SqlBatch.Session.Sqlite
