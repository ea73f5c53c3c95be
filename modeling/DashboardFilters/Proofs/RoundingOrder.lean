import DashboardFilters.Floating

/-!
Rounding and the order. A larger ratio never rounds to a smaller magnitude, so adding and
subtracting keep the order of floating-point numbers wherever the results are numbers at all.
-/

namespace DashboardFilters

-- Powers are those of `Nat` itself, whatever else is in scope.
attribute [local instance (high)] instPowNat

theorem roundHalfEven_mono {num num' : Nat} (den : Nat) (h : num ≤ num') :
    roundHalfEven num den ≤ roundHalfEven num' den := by
  have hquotient : num / den ≤ num' / den := Nat.div_le_div_right h
  rcases Nat.lt_or_eq_of_le hquotient with hless | hsame
  · calc roundHalfEven num den ≤ num / den + 1 := roundHalfEven_le num den
      _ ≤ num' / den := hless
      _ ≤ roundHalfEven num' den := div_le_roundHalfEven num' den
  have hremainder : num % den ≤ num' % den := by
    have hnum := Nat.div_add_mod num den
    have hnum' := Nat.div_add_mod num' den
    rw [hsame] at hnum
    omega
  simp only [roundHalfEven, hsame]
  by_cases hlow : 2 * (num % den) < den
  · rw [if_pos hlow]
    exact div_le_roundHalfEven num' den
  by_cases hhigh : den < 2 * (num' % den)
  · rw [if_neg (show ¬ 2 * (num' % den) < den by omega), if_pos hhigh, ← hsame]
    have hround := roundHalfEven_le num den
    rw [roundHalfEven] at hround
    exact hround
  · -- Both are halves.
    apply Nat.le_of_eq
    rw [if_neg hlow, if_neg (show ¬ den < 2 * (num % den) by omega),
      if_neg (show ¬ 2 * (num' % den) < den by omega), if_neg hhigh]

theorem log2_mono {m n : Nat} (h : m ≤ n) : m.log2 ≤ n.log2 := by
  rcases Nat.eq_zero_or_pos m with rfl | hm
  · rw [Nat.log2_zero]
    exact Nat.zero_le _
  · have hm : m ≠ 0 := Nat.ne_of_gt hm
    have hn : n ≠ 0 := by omega
    exact (Nat.le_log2 hn).2 (Nat.le_trans (Nat.log2_self_le hm) h)

namespace Format

theorem round_le_two_pow (f : Format) (num den : Nat) :
    f.round num den ≤ 2 ^ ((num / den).log2 + 1) := by
  have hexponent : f.gridExponent (num / den) ≤ (num / den).log2 + 1 := Nat.sub_le _ _
  have hquotient : num / (den * f.grid (num / den)) <
      2 ^ ((num / den).log2 + 1 - f.gridExponent (num / den)) := by
    rw [← Nat.div_div_eq_div_mul, Nat.div_lt_iff_lt_mul (f.grid_pos _), grid, ← Nat.pow_add,
      Nat.sub_add_cancel hexponent]
    exact Nat.lt_log2_self
  have hround := roundHalfEven_le num (den * f.grid (num / den))
  calc f.round num den
      = roundHalfEven num (den * f.grid (num / den)) * f.grid (num / den) := rfl
    _ ≤ 2 ^ ((num / den).log2 + 1 - f.gridExponent (num / den)) * f.grid (num / den) :=
        Nat.mul_le_mul_right _ (by omega)
    _ = 2 ^ ((num / den).log2 + 1) := by
        rw [grid, ← Nat.pow_add, Nat.sub_add_cancel hexponent]

theorem two_pow_le_round (f : Format) {num den : Nat} (h : num / den ≠ 0) :
    2 ^ (num / den).log2 ≤ f.round num den := by
  have hexponent : f.gridExponent (num / den) ≤ (num / den).log2 := by
    have := f.precision_pos
    rw [gridExponent]
    omega
  have hquotient : 2 ^ ((num / den).log2 - f.gridExponent (num / den)) ≤
      num / (den * f.grid (num / den)) := by
    rw [← Nat.div_div_eq_div_mul, Nat.le_div_iff_mul_le (f.grid_pos _), grid, ← Nat.pow_add,
      Nat.sub_add_cancel hexponent]
    exact Nat.log2_self_le h
  calc 2 ^ (num / den).log2
      = 2 ^ ((num / den).log2 - f.gridExponent (num / den)) * f.grid (num / den) := by
        rw [grid, ← Nat.pow_add, Nat.sub_add_cancel hexponent]
    _ ≤ roundHalfEven num (den * f.grid (num / den)) * f.grid (num / den) :=
        Nat.mul_le_mul_right _ (Nat.le_trans hquotient (div_le_roundHalfEven _ _))

theorem round_mono (f : Format) {num num' : Nat} (den : Nat) (h : num ≤ num') :
    f.round num den ≤ f.round num' den := by
  have hlog : (num / den).log2 ≤ (num' / den).log2 := log2_mono (Nat.div_le_div_right h)
  rcases Nat.lt_or_eq_of_le hlog with hless | hsame
  · -- A power of two lies between the two.
    have hne : num' / den ≠ 0 := by
      intro hzero
      rw [hzero, Nat.log2_zero] at hless
      exact Nat.not_lt_zero _ hless
    calc f.round num den ≤ 2 ^ ((num / den).log2 + 1) := f.round_le_two_pow num den
      _ ≤ 2 ^ (num' / den).log2 := Nat.pow_le_pow_right (by decide) hless
      _ ≤ f.round num' den := f.two_pow_le_round hne
  · have hgrid : f.grid (num / den) = f.grid (num' / den) := by
      rw [grid, grid, gridExponent, gridExponent, hsame]
    rw [round, round, hgrid]
    exact Nat.mul_le_mul_right _ (roundHalfEven_mono _ h)

/-- The magnitude that a number of units is rounded to; all that is past the range counts as its
end. -/
def clamp (f : Format) (units : Nat) : Nat :=
  min (f.round units 1) (2 ^ f.limit)

theorem clamp_mono (f : Format) {m n : Nat} (h : m ≤ n) : f.clamp m ≤ f.clamp n := by
  have := f.round_mono 1 h
  unfold clamp
  omega

end Format

namespace Floating

variable {f : Format} {x y z : Floating f}

theorem signed_bounds (negative : Bool) {m n : Nat} (h : m ≤ n) :
    -(n : Int) ≤ signed negative m ∧ signed negative m ≤ n := by
  cases negative <;> simp only [signed] <;> omega

/-- Where a number stands in the order, in units. Infinity stands at the end of the range. -/
def rank : Floating f → Int
  | nan => 0
  | infinite negative => signed negative (2 ^ f.limit)
  | finite negative units _ => signed negative units

theorem rank_bounds (x : Floating f) :
    -((2 ^ f.limit : Nat) : Int) ≤ x.rank ∧ x.rank ≤ (2 ^ f.limit : Nat) := by
  cases x with
  | nan => exact signed_bounds false (Nat.zero_le _)
  | infinite negative => exact signed_bounds negative (Nat.le_refl _)
  | finite negative units fits => exact signed_bounds negative (Nat.le_of_lt fits.2)

theorem lt_iff : x.lt y = true ↔ x ≠ nan ∧ y ≠ nan ∧ x.rank < y.rank := by
  have hpos : 0 < 2 ^ f.limit := Nat.pow_pos (by decide)
  cases x with
  | nan => simp [lt]
  | infinite s =>
      cases y with
      | nan => simp [lt]
      | infinite t =>
          simp only [lt, rank, ne_eq, reduceCtorEq, not_false_eq_true, true_and]
          generalize 2 ^ f.limit = limit at hpos
          cases s <;> cases t <;> simp [signed]
          omega
      | finite t v fits =>
          have hfits := fits.2
          simp only [lt, rank, ne_eq, reduceCtorEq, not_false_eq_true, true_and]
          generalize 2 ^ f.limit = limit at hpos hfits
          cases s <;> cases t <;> simp [signed] <;> omega
  | finite s u fits =>
      cases y with
      | nan => simp [lt]
      | infinite t =>
          have hfits := fits.2
          simp only [lt, rank, ne_eq, reduceCtorEq, not_false_eq_true, true_and]
          generalize 2 ^ f.limit = limit at hpos hfits
          cases s <;> cases t <;> simp [signed] <;> omega
      | finite t v => simp [lt, rank]

theorem le_iff : x.le y = true ↔ x ≠ nan ∧ y ≠ nan ∧ x.rank ≤ y.rank := by
  by_cases hx : x = nan
  · simp [hx, le]
  by_cases hy : y = nan
  · cases x <;> simp [hy, le]
  have hle : x.le y = !y.lt x := by
    cases x with
    | nan => exact absurd rfl hx
    | infinite | finite =>
        cases y with
        | nan => exact absurd rfl hy
        | infinite | finite => rfl
  rw [hle, Bool.not_eq_true', ← Bool.not_eq_true, lt_iff]
  simp only [hx, hy, ne_eq, not_false_eq_true, true_and, Int.not_lt]

theorem le_trans (hxy : x.le y = true) (hyz : y.le z = true) : x.le z = true := by
  obtain ⟨hx, -, hxy⟩ := le_iff.1 hxy
  obtain ⟨-, hz, hyz⟩ := le_iff.1 hyz
  exact le_iff.2 ⟨hx, hz, Int.le_trans hxy hyz⟩

theorem lt_of_le_of_lt (hxy : x.le y = true) (hyz : y.lt z = true) : x.lt z = true := by
  obtain ⟨hx, -, hxy⟩ := le_iff.1 hxy
  obtain ⟨-, hz, hyz⟩ := lt_iff.1 hyz
  exact lt_iff.2 ⟨hx, hz, Int.lt_of_le_of_lt hxy hyz⟩

theorem le_refl (hx : x ≠ nan) : x.le x = true :=
  le_iff.2 ⟨hx, hx, Int.le_refl _⟩

theorem infinite_le (hx : x ≠ nan) : (infinite true).le x = true :=
  le_iff.2 ⟨nofun, hx, x.rank_bounds.1⟩

theorem le_infinite (hx : x ≠ nan) : x.le (infinite false) = true :=
  le_iff.2 ⟨hx, nofun, x.rank_bounds.2⟩

theorem eq_infinite_of_infinite_le (h : (infinite false).le x = true) : x = infinite false := by
  cases x with
  | nan | finite => cases h
  | infinite negative =>
      cases negative with
      | false => rfl
      | true => cases h

theorem not_infinite_lt (x : Floating f) : (infinite false).lt x = false := by
  cases x <;> rfl

def nearest (f : Format) (units : Int) : Int :=
  signed (decide (units < 0)) (f.clamp units.natAbs)

theorem nearest_mono (f : Format) {i j : Int} (h : i ≤ j) : nearest f i ≤ nearest f j := by
  unfold nearest
  by_cases hj : j < 0
  · rw [decide_eq_true (show i < 0 by omega), decide_eq_true hj]
    have := f.clamp_mono (show j.natAbs ≤ i.natAbs by omega)
    simp only [signed, if_true]
    omega
  rw [decide_eq_false hj]
  by_cases hi : i < 0
  · rw [decide_eq_true hi]
    simp only [signed, if_true, Bool.false_eq_true, if_false]
    omega
  · rw [decide_eq_false hi]
    have := f.clamp_mono (show i.natAbs ≤ j.natAbs by omega)
    simp only [signed, Bool.false_eq_true, if_false]
    omega

theorem rank_ofRatio (negative : Bool) (units : Nat) :
    (ofRatio f negative units 1).rank = signed negative (f.clamp units) := by
  unfold ofRatio Format.clamp
  split
  · rename_i hfinite
    rw [Nat.min_eq_left (Nat.le_of_lt hfinite)]
    rfl
  · rename_i hinfinite
    rw [Nat.min_eq_right (Nat.not_lt.1 hinfinite)]
    rfl

theorem ofRatio_ne_nan (negative : Bool) (num den : Nat) : ofRatio f negative num den ≠ nan := by
  unfold ofRatio
  split <;> nofun

theorem rank_add_finite (s t : Bool) {u v : Nat} (hu : f.Fits u) (hv : f.Fits v) :
    (finite s u hu + finite t v hv).rank = nearest f (signed s u + signed t v) := by
  show (ofRatio f _ _ 1).rank = _
  rw [rank_ofRatio, nearest]
  split
  · rename_i hzero
    have hclamp : f.clamp 0 = 0 := by simp [Format.clamp, Format.round, roundHalfEven]
    rw [hzero, Int.natAbs_zero, hclamp]
    cases s <;> cases t <;> rfl
  · rfl

theorem add_nan (x : Floating f) : x + nan = nan := by
  cases x <;> rfl

theorem add_infinite (hx : x ≠ nan) {negative : Bool} (h : x + infinite negative ≠ nan) :
    x + infinite negative = infinite negative := by
  cases x with
  | nan => exact absurd rfl hx
  | infinite s =>
      have hadd : infinite s + infinite negative =
          if s = negative then infinite (f := f) s else nan := rfl
      rw [hadd] at h ⊢
      split at h
      · rename_i heq
        rw [if_pos heq, heq]
      · exact absurd rfl h
  | finite => rfl

theorem add_le_add_right (hxy : x.le y = true) (hx : x + z ≠ nan) (hy : y + z ≠ nan) :
    (x + z).le (y + z) = true := by
  obtain ⟨hx', hy', hrank⟩ := le_iff.1 hxy
  cases z with
  | nan => exact absurd (add_nan x) hx
  | infinite negative =>
      rw [add_infinite hx' hx, add_infinite hy' hy]
      exact le_refl nofun
  | finite t w hw =>
      match x, y with
      | nan, _ => exact absurd rfl hx'
      | _, nan => exact absurd rfl hy'
      | infinite true, _ => exact infinite_le hy
      | _, infinite false => exact le_infinite hx
      | infinite false, finite .. | infinite false, infinite true => cases hxy
      | finite .., infinite true => cases hxy
      | finite s u hu, finite s' v hv =>
          rw [le_iff, rank_add_finite, rank_add_finite]
          exact ⟨hx, hy, nearest_mono f (Int.add_le_add_right hrank _)⟩

/-- What a sum stays below, a smaller one stays below as well. If the smaller one is no number, both
parts are infinite, and the larger one is infinite or no number either. -/
theorem add_lt_of_le (hxy : x.le y = true) {v : Floating f} (h : (y + z).lt v = true) :
    (x + z).lt v = true := by
  have hy : y + z ≠ nan := (lt_iff.1 h).1
  by_cases hx : x + z = nan
  · match x, z with
    | nan, _ => exact absurd rfl (le_iff.1 hxy).1
    | _, nan => exact absurd (add_nan y) hy
    | finite .., finite .. => exact absurd hx (ofRatio_ne_nan _ _ _)
    | finite .., infinite _ | infinite _, finite .. => cases hx
    | infinite false, infinite false | infinite true, infinite true => cases hx
    | infinite false, infinite true =>
        rw [eq_infinite_of_infinite_le hxy] at hy
        exact absurd rfl hy
    | infinite true, infinite false =>
        rw [add_infinite (le_iff.1 hxy).2.1 hy, not_infinite_lt] at h
        cases h
  · exact lt_of_le_of_lt (add_le_add_right hxy hx hy) h

theorem ne_nan_of_isFinite (h : x.isFinite = true) : x ≠ nan := by
  cases x with
  | nan | infinite => cases h
  | finite => nofun

theorem sub_nan (x : Floating f) : x - nan = nan := by
  cases x <;> rfl

theorem sub_ne_nan (hx : x.isFinite = true) (hz : z ≠ nan) : x - z ≠ nan := by
  match x, z with
  | nan, _ | infinite _, _ => cases hx
  | finite .., nan => exact absurd rfl hz
  | finite .., infinite _ => nofun
  | finite .., finite .. => exact ofRatio_ne_nan _ _ _

theorem sub_le_sub_right (hxy : x.le y = true) (hx : x - z ≠ nan) (hy : y - z ≠ nan) :
    (x - z).le (y - z) = true :=
  add_le_add_right hxy hx hy

theorem sub_lt_of_le (hxy : x.le y = true) {v : Floating f} (h : (y - z).lt v = true) :
    (x - z).lt v = true :=
  add_lt_of_le hxy h

end Floating

end DashboardFilters
