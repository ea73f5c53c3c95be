import DashboardFilters.Digits
import DashboardFilters.Floating

/-!
Decimal numerals and the floating-point numbers nearest to them, and back: the shortest numeral
that rounds to a given number.
-/

namespace DashboardFilters

-- Powers are those of `Nat` itself, whatever else is in scope.
attribute [local instance (high)] instPowNat

/-- The numeral `± digits · 10 ^ exponent`. -/
structure Decimal where
  negative : Bool
  digits : Nat
  exponent : Int
deriving DecidableEq, Repr

namespace Decimal

def ofParts (negative : Bool) (whole fraction : List Char) (exponent : Int) : Decimal :=
  { negative
    digits := digitsValue 10 (whole ++ fraction)
    exponent := exponent - fraction.length }

/-- The nearest number of the format. A numeral far outside the range of the format is settled
without computing the power of ten: `10 ^ limit` is past every magnitude, and what lies below half
a unit rounds to zero. -/
def toFloating (f : Format) (d : Decimal) : Floating f :=
  if d.digits = 0 then
    .zero d.negative
  else if (f.limit : Int) < d.exponent then
    .infinite d.negative
  else if 0 ≤ d.exponent then
    .ofRatio f d.negative (d.digits * 10 ^ d.exponent.toNat * 2 ^ f.scale) 1
  else if (d.digits.log2 + 2 + f.scale : Int) ≤ 3 * -d.exponent then
    .zero d.negative
  else
    .ofRatio f d.negative (d.digits * 2 ^ f.scale) (10 ^ (-d.exponent).toNat)

end Decimal

/-- The reals that round to a magnitude: the ends in quarters of a unit, and whether the ends
belong to them. -/
structure Basin where
  low : Nat
  high : Nat
  closed : Bool

namespace Format

/-- Below a power of two the neighbouring magnitude is only half as far. A half goes to the even
neighbour, so the ends round to `units` when its last significant bit is zero. -/
def basin (f : Format) (units : Nat) : Basin :=
  let step := f.grid units
  let below := if units = 2 ^ (f.precision - 1) * step ∧ 1 < step then step / 2 else step
  { low := 4 * units - 2 * below
    high := 4 * units + 2 * step
    closed := units / step % 2 == 0 }

/-- The multiple of `10 ^ exponent` nearest to a magnitude among those that round to it. -/
def nearestOnGrid? (f : Format) (units : Nat) (exponent : Int) : Option Nat :=
  let num := 10 ^ exponent.toNat * (4 * 2 ^ f.scale)
  let den := 10 ^ (-exponent).toNat
  let basin := f.basin units
  let target := 4 * units * den
  let inside (n : Nat) : Bool :=
    if basin.closed then basin.low * den ≤ n * num && n * num ≤ basin.high * den
    else basin.low * den < n * num && n * num < basin.high * den
  let n := target / num
  let below := target - n * num
  let above := (n + 1) * num - target
  match inside n && n != 0, inside (n + 1) with
  | true, true =>
      if below < above || below == above && n % 2 == 0 then some n else some (n + 1)
  | true, false => some n
  | false, true => some (n + 1)
  | false, false => none

def shortestFrom (f : Format) (units : Nat) : Nat → Int → Nat × Int
  | 0, exponent => (0, exponent)
  | fuel + 1, exponent =>
      match f.nearestOnGrid? units exponent with
      | some digits => (digits, exponent)
      | none => f.shortestFrom units fuel (exponent - 1)

/-- The fewest digits that round to a magnitude, and the nearest of those. The search starts at a
power of ten above the magnitude, and the grid is finer than the neighbours' distance well before
`precision + 3` steps. -/
def shortest (f : Format) (units : Nat) : Nat × Int :=
  let bits : Int := units.log2 + 1 - f.scale
  f.shortestFrom units (f.precision + 3) (bits * 30103 / 100000 + 1)

end Format

namespace Floating

variable {f : Format}

def shortest? : Floating f → Option Decimal
  | finite negative units _ =>
      if units = 0 then some { negative, digits := 0, exponent := 0 }
      else
        let (digits, exponent) := f.shortest units
        some { negative, digits, exponent }
  | _ => none

end Floating

end DashboardFilters
