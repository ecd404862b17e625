/-! Statements of a script, and the delimiter every script starts with. -/

namespace SqlBatch

/-- One statement: its place in the script counted from 1, its text, and the delimiter in force
where it was closed. -/
structure Statement where
  index : Nat
  sql : String
  delimiter : String
  deriving DecidableEq, Repr, Inhabited

namespace Statement

def defaultDelimiter : String := ";"

def isEmpty (s : Statement) : Bool := s.sql.isEmpty

end Statement
end SqlBatch
