import SqlBatch.Decimal.Binary64

/-! The shortest decimal that reads back as a given magnitude. The reals that round to it form an
interval, closed if and only if its mantissa is even. Of the decimal grids, from coarse to fine,
the first with a point in the interval is taken, and on it the point nearest to the magnitude, a
tie going to the even one. -/

namespace SqlBatch.Decimal

structure Scaled where
  digits : Nat
  tens : Int
  deriving DecidableEq, Repr

namespace Magnitude

/-- The lower end, the magnitude itself and the upper end of the interval that rounds to it, in
quarters of its unit. -/
def interval (x : Magnitude) : Nat × Nat × Nat :=
  let narrow := x.mantissa = Nat.pow 2 52 ∧ leastExponent < x.exponent
  (4 * x.mantissa - (if narrow then 1 else 2), 4 * x.mantissa, 4 * x.mantissa + 2)

def within (closed : Bool) (a b : Nat) : Bool := if closed then a ≤ b else a < b

/-- The point of the grid of `10 ^ tens` nearest to the magnitude, if one rounds to it. -/
def onGrid? (x : Magnitude) (tens : Int) : Option Nat :=
  let quarter := x.exponent - 2
  let scale := Nat.pow 2 quarter.toNat * Nat.pow 10 (-tens).toNat
  let unit := Nat.pow 2 (-quarter).toNat * Nat.pow 10 tens.toNat
  let (low, value, high) := x.interval
  let closed := x.mantissa % 2 = 0
  let hits (c : Nat) : Bool :=
    within closed (low * scale) (c * unit) && within closed (c * unit) (high * scale)
  let below := value * scale / unit
  let excess := value * scale - below * unit
  match hits below, hits (below + 1) with
  | true, true =>
    some (if 2 * excess < unit ∨ (2 * excess = unit ∧ below % 2 = 0) then below else below + 1)
  | true, false => some below
  | false, true => some (below + 1)
  | false, false => none

def shortestFrom (x : Magnitude) : Nat → Scaled
  | 0 => ⟨0, 0⟩
  | n + 1 =>
    let tens : Int := (n : Int) - 325
    match x.onGrid? tens with
    | some c => ⟨c, tens⟩
    | none => shortestFrom x n

/-- No magnitude exceeds `10 ^ 309`, and the finest grid has a point in every interval. -/
def shortest (x : Magnitude) : Scaled := if x.isZero then ⟨0, 0⟩ else x.shortestFrom 635

end Magnitude
end SqlBatch.Decimal
