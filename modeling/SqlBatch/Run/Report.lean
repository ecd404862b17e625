/-! The outcome of one file: how many statements were attempted and succeeded, and what failed. A
failed database switch is kept apart and counts as no statement. -/

namespace SqlBatch.Run

structure StatementFailure where
  index : Nat
  message : String
  deriving DecidableEq, Repr

structure Report where
  file : String
  attempted : Nat := 0
  succeeded : Nat := 0
  failures : List StatementFailure := []
  databaseError : Option String := none
  deriving DecidableEq, Repr

namespace Report

def failed (r : Report) : Nat := r.failures.length

def allSucceeded (r : Report) : Bool := r.failures.isEmpty && r.databaseError.isNone

def countAttempts (r : Report) (n : Nat) : Report := { r with attempted := r.attempted + n }

def countSuccess (r : Report) : Report := { r with succeeded := r.succeeded + 1 }

def addFailure (r : Report) (f : StatementFailure) : Report :=
  { r with failures := r.failures ++ [f] }

/-- Failures by their statements' places; those of one place keep their order. -/
def sorted (r : Report) : Report :=
  { r with failures := r.failures.mergeSort fun a b => a.index ≤ b.index }

end Report
end SqlBatch.Run
