import SqlBatch.Json.Basic

/-! The value of a written number. Digits are gathered into a significand of 64 bits as long as
they fit; digits after those count as zeros before the point and not at all behind it. A number
without point and exponent is an integer if it fits 64 bits with its sign, and negative zero does
not; everything else is a floating-point number. -/

namespace SqlBatch.Json

open Decimal

def significandBound : Nat := Nat.pow 2 64

def exponentBound : Nat := Nat.pow 2 31

structure Numeral where
  negative : Bool
  whole : List Nat
  fraction : Option (List Nat)
  exponent : Option (Bool × Nat)
  deriving Repr

namespace Numeral

def gather : Nat → List Nat → Nat × Nat
  | acc, [] => (acc, 0)
  | acc, d :: ds =>
    if acc * 10 + d < significandBound then gather (acc * 10 + d) ds else (acc, ds.length + 1)

/-- The significand and the power of ten it is multiplied by, before the written exponent. -/
def significand (n : Numeral) : Nat × Int :=
  let (whole, dropped) := gather 0 n.whole
  let digits := n.fraction.getD []
  let (all, ignored) := gather whole digits
  (all, (dropped : Int) - (digits.length - ignored : Nat))

def writtenExponent (n : Numeral) : Int :=
  match n.exponent with
  | none => 0
  | some (true, k) => -(k : Int)
  | some (false, k) => k

def float? (n : Numeral) : Option Json :=
  let (all, tens) := n.significand
  (Magnitude.ofScientific? all (tens + n.writtenExponent)).map fun m => .float ⟨n.negative, m⟩

def value? (n : Numeral) : Option Json :=
  let (whole, dropped) := gather 0 n.whole
  if n.fraction.isNone ∧ n.exponent.isNone ∧ dropped = 0 then
    if !n.negative then some (.int whole)
    else if 0 < whole ∧ whole ≤ Nat.pow 2 63 then some (.int (-(whole : Int)))
    else n.float?
  else n.float?

end Numeral
end SqlBatch.Json
