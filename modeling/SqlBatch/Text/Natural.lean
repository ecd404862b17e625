/-! Numbers written in decimal digits, with an optional sign, up to a bound. -/

namespace SqlBatch.Text

def digitsValue (cs : List Char) : Nat := cs.foldl (fun n c => n * 10 + (c.toNat - 48)) 0

def natural? (bound : Nat) (cs : List Char) : Option Nat :=
  let digits := if cs.head? = some '+' then cs.tail else cs
  if digits.isEmpty || !digits.all Char.isDigit then none
  else if digitsValue digits ≤ bound then some (digitsValue digits) else none

/-- Reads a whole text as one number not above `bound` and not below `-bound - 1`. -/
def integer? (bound : Nat) : List Char → Option Int
  | '-' :: digits =>
    if digits.head? = some '+' then none else (natural? (bound + 1) digits).map fun n => -(n : Int)
  | cs => (natural? bound cs).map Int.ofNat

end SqlBatch.Text
