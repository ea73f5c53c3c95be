/-!
Binary floating-point formats and rounding to them.

A magnitude is counted in units, the smallest positive magnitude of its format, so that every
finite magnitude is a natural number. `Format.round` takes an exact ratio of units to the nearest
magnitude of the format, a half to the even neighbour; `Format.fits_round` says that the result is
one.
-/

namespace DashboardFilters

-- Powers are those of `Nat` itself, whatever else is in scope.
attribute [local instance (high)] instPowNat

/-- The natural number nearest to `num / den`, a half going to the even neighbour. -/
def roundHalfEven (num den : Nat) : Nat :=
  let quotient := num / den
  let remainder := num % den
  if 2 * remainder < den then quotient
  else if den < 2 * remainder then quotient + 1
  else quotient + quotient % 2

theorem roundHalfEven_le (num den : Nat) : roundHalfEven num den ≤ num / den + 1 := by
  simp only [roundHalfEven]
  split
  · omega
  · split <;> omega

theorem div_le_roundHalfEven (num den : Nat) : num / den ≤ roundHalfEven num den := by
  simp only [roundHalfEven]
  split
  · omega
  · split <;> omega

@[simp] theorem roundHalfEven_one (n : Nat) : roundHalfEven n 1 = n := by
  simp [roundHalfEven, Nat.mod_one]

/-- A unit is `2 ^ -scale`; a finite magnitude has at most `precision` significant bits and lies
below `2 ^ limit` units. -/
structure Format where
  precision : Nat
  scale : Nat
  limit : Nat
  precision_pos : 0 < precision := by decide

namespace Format

def binary32 : Format := { precision := 24, scale := 149, limit := 277 }

def binary64 : Format := { precision := 53, scale := 1074, limit := 2098 }

def gridExponent (f : Format) (units : Nat) : Nat :=
  units.log2 + 1 - f.precision

def grid (f : Format) (units : Nat) : Nat :=
  2 ^ f.gridExponent units

def Fits (f : Format) (units : Nat) : Prop :=
  f.grid units ∣ units ∧ units < 2 ^ f.limit

instance (f : Format) (units : Nat) : Decidable (f.Fits units) :=
  inferInstanceAs (Decidable (_ ∧ _))

def round (f : Format) (num den : Nat) : Nat :=
  let step := f.grid (num / den)
  roundHalfEven num (den * step) * step

theorem grid_pos (f : Format) (units : Nat) : 0 < f.grid units :=
  Nat.pow_pos (by decide)

theorem grid_dvd_grid_mul (f : Format) {m s : Nat} (h : m ≤ 2 ^ f.precision) :
    f.grid (m * 2 ^ s) ∣ m * 2 ^ s := by
  rcases Nat.eq_zero_or_pos m with rfl | hm
  · simp
  rcases Nat.lt_or_eq_of_le h with hlt | rfl
  · apply Nat.dvd_mul_left_of_dvd
    apply Nat.pow_dvd_pow
    have hne : m * 2 ^ s ≠ 0 := Nat.ne_of_gt (Nat.mul_pos hm (Nat.pow_pos (by decide)))
    have hlog : (m * 2 ^ s).log2 < f.precision + s := by
      rw [Nat.log2_lt hne, Nat.pow_add]
      exact Nat.mul_lt_mul_of_pos_right hlt (Nat.pow_pos (by decide))
    unfold gridExponent
    omega
  · rw [← Nat.pow_add]
    apply Nat.pow_dvd_pow
    have := f.precision_pos
    rw [gridExponent, Nat.log2_two_pow]
    omega

theorem quotient_lt (f : Format) (num den : Nat) :
    num / (den * f.grid (num / den)) < 2 ^ f.precision := by
  rw [← Nat.div_div_eq_div_mul, Nat.div_lt_iff_lt_mul (f.grid_pos _), grid, gridExponent,
    ← Nat.pow_add]
  refine Nat.lt_of_lt_of_le (Nat.lt_log2_self (n := num / den)) ?_
  exact Nat.pow_le_pow_right (by decide) (by omega)

theorem fits_round (f : Format) (num den : Nat) (h : f.round num den < 2 ^ f.limit) :
    f.Fits (f.round num den) := by
  refine ⟨?_, h⟩
  apply grid_dvd_grid_mul
  have := f.quotient_lt num den
  have := roundHalfEven_le num (den * f.grid (num / den))
  omega

theorem round_of_dvd (f : Format) {n : Nat} (h : f.grid n ∣ n) : f.round n 1 = n := by
  obtain ⟨m, hm⟩ := h
  have hpos := f.grid_pos n
  have hmod : n % f.grid n = 0 := Nat.mod_eq_zero_of_dvd ⟨m, hm⟩
  simp only [round, Nat.div_one, Nat.one_mul, roundHalfEven, hmod]
  rw [if_pos (by omega)]
  exact Nat.div_mul_cancel ⟨m, hm⟩

end Format

end DashboardFilters
