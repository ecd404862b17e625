/-! Binary floating-point numbers of 64 bits, held as sign, mantissa and exponent, so that every
operation is exact arithmetic on naturals with one rounding at its end: to the nearest, a tie to
the even mantissa. A magnitude is `mantissa * 2 ^ exponent` with a mantissa below `2 ^ 53`, and at
least `2 ^ 52` unless the exponent is the least one. -/

namespace SqlBatch.Decimal

structure Magnitude where
  mantissa : Nat
  exponent : Int
  deriving DecidableEq, Repr

structure Binary64 where
  negative : Bool
  magnitude : Magnitude
  deriving DecidableEq, Repr

namespace Magnitude

def leastExponent : Int := -1074

def greatestExponent : Int := 971

def zero : Magnitude := ⟨0, leastExponent⟩

def isZero (x : Magnitude) : Bool := x.mantissa = 0

/-- The quotient rounded to the nearest natural, a tie to the even one. -/
def roundQuotient (num den : Nat) : Nat :=
  let q := num / den
  let r := num % den
  if den < 2 * r ∨ (2 * r = den ∧ q % 2 = 1) then q + 1 else q

def inUnits (num den : Nat) (e : Int) : Nat × Nat :=
  (num * Nat.pow 2 (-e).toNat, den * Nat.pow 2 e.toNat)

/-- The magnitude nearest to `num / den`, if there is a finite one. -/
def ofQuotient? (num den : Nat) : Option Magnitude :=
  if num = 0 then some zero
  else
    let coarse := max leastExponent ((num.log2 : Int) - (den.log2 : Int) - 53)
    let scaled := inUnits num den coarse
    let e := if scaled.1 / scaled.2 < Nat.pow 2 53 then coarse else coarse + 1
    let units := inUnits num den e
    let m := roundQuotient units.1 units.2
    let carried : Magnitude := if m = Nat.pow 2 53 then ⟨Nat.pow 2 52, e + 1⟩ else ⟨m, e⟩
    if carried.exponent ≤ greatestExponent then some carried else none

def mul? (x y : Magnitude) : Option Magnitude :=
  let e := x.exponent + y.exponent
  ofQuotient? (x.mantissa * y.mantissa * Nat.pow 2 e.toNat) (Nat.pow 2 (-e).toNat)

def div? (x y : Magnitude) : Option Magnitude :=
  let e := x.exponent - y.exponent
  ofQuotient? (x.mantissa * Nat.pow 2 e.toNat) (y.mantissa * Nat.pow 2 (-e).toNat)

def tenPower? (k : Nat) : Option Magnitude := ofQuotient? (Nat.pow 10 k) 1

def greatestTenPower : Nat := 308

def shrink? (x : Magnitude) : Nat → Option Magnitude
  | 0 => some x
  | rounds + 1 =>
    if x.isZero then some x
    else do (← x.div? (← tenPower? greatestTenPower)).shrink? rounds

def shiftDown? (x : Magnitude) (k : Nat) : Option Magnitude := do
  let rounds := (k - 1) / greatestTenPower
  (← x.shrink? rounds).div? (← tenPower? (k - rounds * greatestTenPower))

/-- The significand times a power of ten, each rounded before they meet. Nothing if the result is
too large. -/
def ofScientific? (significand : Nat) (tens : Int) : Option Magnitude := do
  let x ← ofQuotient? significand 1
  if tens < 0 then x.shiftDown? tens.natAbs
  else if x.isZero then some x
  else if tens.natAbs ≤ greatestTenPower then x.mul? (← tenPower? tens.natAbs)
  else none

end Magnitude
end SqlBatch.Decimal
