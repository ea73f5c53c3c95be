import DashboardFilters.Floating.Decimal
import DashboardFilters.Json

/-!
The value of a JSON numeral. Without fraction and exponent it is an integer if it fits 64 bits,
signed or unsigned; every other numeral, and `-0`, is a double.

A double is computed from the leading digits, as many as fit 64 bits. They are rounded to a double,
and this is multiplied or divided by a power of ten that is rounded to a double as well. The product
or quotient is rounded once more, so that the result may lie beside the nearest double.
-/

namespace DashboardFilters.Json

def takeFitting (number : Nat) : List Char → Nat × List Char
  | [] => (number, [])
  | c :: rest =>
      let next := 10 * number + (hexValue? c).getD 0
      if next < UInt64.size then takeFitting next rest else (number, c :: rest)

/-- The leading digits of `whole.fraction · 10 ^ exponent`. Digits left of the whole part count as
zeros, and digits left of the fraction are dropped. -/
def leadingDigits (negative : Bool) (whole fraction : List Char) (exponent : Int) : Decimal :=
  let (digits, wholeRest) := takeFitting 0 whole
  let (digits, fractionRest) := takeFitting digits fraction
  { negative
    digits
    exponent := exponent + wholeRest.length + fractionRest.length - fraction.length }

def maxTenExponent : Nat := 308

def tenPower (exponent : Nat) : Binary64 :=
  Decimal.toFloating .binary64 { negative := false, digits := 1, exponent }

/-- Scales a positive double by a power of ten. A power too small for a double is divided out in
several steps; one too large leaves only zero in range. -/
def scaleByTen (x : Binary64) (exponent : Int) : Binary64 :=
  if 0 ≤ exponent then
    if exponent ≤ maxTenExponent then x * tenPower exponent.toNat
    else if x.isZero then x
    else .infinite false
  else if -maxTenExponent ≤ exponent then x / tenPower (-exponent).toNat
  else if x.isZero then x
  else scaleByTen (x / tenPower maxTenExponent) (exponent + maxTenExponent)
termination_by (-exponent).toNat
decreasing_by
  simp only [maxTenExponent] at *
  omega

def toDouble (d : Decimal) : Binary64 :=
  let magnitude := scaleByTen (.ofNat .binary64 d.digits) d.exponent
  if d.negative then -magnitude else magnitude

def double? (d : Binary64) : Option Json :=
  if d.isFinite then some (double d) else none

def integer? (negative : Bool) (magnitude : Nat) : Option Json :=
  if negative then
    if magnitude = 0 ∨ -magnitude < Int64.minValue.toInt then none else some (integer (-magnitude))
  else
    if magnitude < UInt64.size then some (integer magnitude) else none

def ofNumeral? (negative : Bool) (whole fraction : List Char) (exponent : Option Int) :
    Option Json :=
  let rounded := double? (toDouble (leadingDigits negative whole fraction (exponent.getD 0)))
  if fraction.isEmpty && exponent.isNone then
    (integer? negative (digitsValue 10 whole)).or rounded
  else
    rounded

end DashboardFilters.Json
