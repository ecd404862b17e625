import SqlBatch.Text.Blank
import SqlBatch.Verbosity

/-! The order of statements and what happens when one fails. -/

namespace SqlBatch

inductive Mode where
  | serial
  | concurrent
  deriving DecidableEq, Repr, Inhabited

namespace Mode

def name : Mode → String
  | serial => "serial"
  | concurrent => "concurrent"

def ofJson (v : Json) : Except Json.Mismatch Mode :=
  Json.readChoice [("serial", serial), ("concurrent", concurrent)] v

end Mode

structure Policy where
  force : Bool := true
  mode : Mode := .concurrent
  database : Option String := none
  verbosity : Verbosity := .summary
  timeout : Duration := .ofSeconds 60
  deriving DecidableEq, Repr, Inhabited

namespace Policy

/-- Sets the database; a blank name means none. -/
def withDatabase (p : Policy) (database : String) : Policy :=
  { p with database := if Text.isBlankString database then none else some database }

def isSerial (p : Policy) : Bool := p.mode = .serial

def wants (p : Policy) (v : Verbosity) : Bool := v ≤ p.verbosity

end Policy
end SqlBatch
