import DashboardFilters.Floating.Format

/-!
Binary floating-point numbers. Every operation computes its exact result and rounds it once.

`==`, `lt` and `le` compare numerically: nothing compares with a number that is no number, and the
two zeros are equal. Equality as such (`=`) tells all values apart.
-/

namespace DashboardFilters

-- Powers are those of `Nat` itself, whatever else is in scope.
attribute [local instance (high)] instPowNat

inductive Floating (f : Format) where
  | nan
  | infinite (negative : Bool)
  | finite (negative : Bool) (units : Nat) (fits : f.Fits units)
deriving DecidableEq

namespace Floating

variable {f : Format}

/-- The number nearest to `num / den` units; what rounds past the largest magnitude is infinite. -/
def ofRatio (f : Format) (negative : Bool) (num den : Nat) : Floating f :=
  if h : f.round num den < 2 ^ f.limit then
    finite negative (f.round num den) (f.fits_round num den h)
  else
    infinite negative

def zero (negative : Bool) : Floating f :=
  finite negative 0 ⟨Nat.dvd_zero _, Nat.pow_pos (by decide)⟩

def ofInt (f : Format) (i : Int) : Floating f :=
  ofRatio f (decide (i < 0)) (i.natAbs * 2 ^ f.scale) 1

def ofNat (f : Format) (n : Nat) : Floating f :=
  ofInt f n

def convert (g : Format) : Floating f → Floating g
  | nan => nan
  | infinite negative => infinite negative
  | finite negative units _ => ofRatio g negative (units * 2 ^ g.scale) (2 ^ f.scale)

def isFinite : Floating f → Bool
  | finite .. => true
  | _ => false

def isZero : Floating f → Bool
  | finite _ units _ => units == 0
  | _ => false

def signed (negative : Bool) (units : Nat) : Int :=
  if negative then -units else units

def neg : Floating f → Floating f
  | nan => nan
  | infinite negative => infinite !negative
  | finite negative units fits => finite (!negative) units fits

/-- A sum that cancels is positive zero, unless both parts are negative zeros. -/
def add : Floating f → Floating f → Floating f
  | nan, _ => nan
  | _, nan => nan
  | infinite s, infinite t => if s = t then infinite s else nan
  | infinite s, finite .. => infinite s
  | finite .., infinite t => infinite t
  | finite s u _, finite t v _ =>
      let sum := signed s u + signed t v
      ofRatio f (if sum = 0 then s && t else decide (sum < 0)) sum.natAbs 1

def sub (x y : Floating f) : Floating f :=
  x.add y.neg

def mul : Floating f → Floating f → Floating f
  | nan, _ => nan
  | _, nan => nan
  | infinite s, infinite t => infinite (s != t)
  | infinite s, finite t v _ => if v = 0 then nan else infinite (s != t)
  | finite s u _, infinite t => if u = 0 then nan else infinite (s != t)
  | finite s u _, finite t v _ => ofRatio f (s != t) (u * v) (2 ^ f.scale)

def div : Floating f → Floating f → Floating f
  | nan, _ => nan
  | _, nan => nan
  | infinite _, infinite _ => nan
  | infinite s, finite t .. => infinite (s != t)
  | finite s .., infinite t => zero (s != t)
  | finite s u _, finite t v _ =>
      if v = 0 then (if u = 0 then nan else infinite (s != t))
      else ofRatio f (s != t) (u * 2 ^ f.scale) v

def lt : Floating f → Floating f → Bool
  | nan, _ => false
  | _, nan => false
  | infinite s, infinite t => s && !t
  | infinite s, finite .. => s
  | finite .., infinite t => !t
  | finite s u _, finite t v _ => decide (signed s u < signed t v)

def le : Floating f → Floating f → Bool
  | nan, _ => false
  | _, nan => false
  | x, y => !y.lt x

instance : BEq (Floating f) :=
  ⟨fun x y => x.le y && y.le x⟩

instance : Neg (Floating f) := ⟨neg⟩
instance : Add (Floating f) := ⟨add⟩
instance : Sub (Floating f) := ⟨sub⟩
instance : Mul (Floating f) := ⟨mul⟩
instance : Div (Floating f) := ⟨div⟩
instance (n : Nat) : OfNat (Floating f) n := ⟨ofNat f n⟩
instance : Inhabited (Floating f) := ⟨nan⟩

/-- The interchange encoding: sign, biased exponent, fraction. There is none for `nan`, which has
many. -/
def toBits? : Floating f → Option Nat
  | nan => none
  | infinite negative =>
      some (signBit negative + (f.limit - f.precision + 2) * 2 ^ (f.precision - 1))
  | finite negative units _ =>
      let exponent := f.gridExponent units
      some (signBit negative + exponent * 2 ^ (f.precision - 1) + units / 2 ^ exponent)
where
  signBit (negative : Bool) : Nat :=
    if negative then (f.limit - f.precision + 3) * 2 ^ (f.precision - 1) else 0

end Floating

abbrev Binary32 := Floating Format.binary32

abbrev Binary64 := Floating Format.binary64

end DashboardFilters
