import DashboardFilters.Floating
import Mathlib.Algebra.Ring.Nat

/-!
Whole numbers in floating point. Arithmetic on numbers that a format has gives the rounded exact
result, so it is exact for as long as the results are numbers of the format as well.
-/

namespace DashboardFilters

-- Powers are those of `Nat` itself, whatever else is in scope.
attribute [local instance (high)] instPowNat

theorem roundHalfEven_mul_right (num den : Nat) {c : Nat} (hc : 0 < c) :
    roundHalfEven (num * c) (den * c) = roundHalfEven num den := by
  have hless : ∀ a b : Nat, a * c < b * c ↔ a < b := fun a b => Nat.mul_lt_mul_right hc
  simp only [roundHalfEven, Nat.mul_div_mul_right num den hc, Nat.mul_mod_mul_right,
    ← Nat.mul_assoc, hless]

namespace Format

variable {f : Format}

theorem round_mul_right (f : Format) (num den : Nat) {c : Nat} (hc : 0 < c) :
    f.round (num * c) (den * c) = f.round num den := by
  rw [round, round, Nat.mul_div_mul_right num den hc, Nat.mul_right_comm,
    roundHalfEven_mul_right _ _ hc]

theorem grid_le (f : Format) {n : Nat} (hn : 0 < n) : f.grid n ≤ n := by
  refine Nat.le_trans (Nat.pow_le_pow_right (by decide) ?_) (Nat.log2_self_le (Nat.ne_of_gt hn))
  have := f.precision_pos
  rw [gridExponent]
  omega

theorem round_le (f : Format) (n : Nat) : f.round n 1 ≤ 2 * n := by
  rcases Nat.eq_zero_or_pos n with rfl | hn
  · simp [round, roundHalfEven]
  have hround := roundHalfEven_le n (f.grid n)
  calc f.round n 1 = roundHalfEven n (f.grid n) * f.grid n := by
        rw [round, Nat.div_one, Nat.one_mul]
    _ ≤ (n / f.grid n + 1) * f.grid n := Nat.mul_le_mul_right _ hround
    _ = n / f.grid n * f.grid n + f.grid n := by rw [Nat.add_mul, Nat.one_mul]
    _ ≤ 2 * n := by
        have := Nat.div_mul_le_self n (f.grid n)
        have := f.grid_le hn
        omega

def HasInt (f : Format) (i : Int) : Prop :=
  f.Fits (i.natAbs * 2 ^ f.scale)

theorem hasInt_zero (f : Format) : f.HasInt 0 := by
  rw [HasInt, Int.natAbs_zero, Nat.zero_mul]
  exact ⟨Nat.dvd_zero _, Nat.pow_pos (by decide)⟩

theorem hasInt_binary32 {i : Int} (h : i.natAbs ≤ 2 ^ 24) : binary32.HasInt i := by
  refine ⟨binary32.grid_dvd_grid_mul h, ?_⟩
  calc i.natAbs * 2 ^ binary32.scale ≤ 2 ^ 24 * 2 ^ binary32.scale := Nat.mul_le_mul_right _ h
    _ = 2 ^ 173 := (Nat.pow_add 2 24 149).symm
    _ < 2 ^ binary32.limit := Nat.pow_lt_pow_right (by decide) (by decide)

end Format

namespace Floating

variable {f : Format} {a b : Int}

theorem ofRatio_of_fits (negative : Bool) {units : Nat} (h : f.Fits units) :
    ofRatio f negative units 1 = finite negative units h := by
  have hround : f.round units 1 = units := f.round_of_dvd h.1
  have hlimit : f.round units 1 < 2 ^ f.limit := hround.symm ▸ h.2
  rw [ofRatio, dif_pos hlimit]
  congr 1

theorem ofInt_eq_finite (h : f.HasInt a) :
    ofInt f a = finite (decide (a < 0)) (a.natAbs * 2 ^ f.scale) h :=
  ofRatio_of_fits _ h

theorem isFinite_ofInt (h : f.HasInt a) : (ofInt f a).isFinite = true := by
  rw [ofInt_eq_finite h]
  rfl

theorem signed_not (negative : Bool) (units : Nat) :
    signed (!negative) units = -signed negative units := by
  cases negative <;> simp [signed]

theorem signed_natAbs_mul (a : Int) (c : Nat) :
    signed (decide (a < 0)) (a.natAbs * c) = a * c := by
  rw [signed, Int.natCast_mul, ← Int.neg_mul]
  by_cases hneg : a < 0
  · rw [if_pos (decide_eq_true hneg), Int.ofNat_natAbs_of_nonpos (Int.le_of_lt hneg), Int.neg_neg]
  · rw [if_neg (by simpa using hneg), Int.natAbs_of_nonneg (Int.not_lt.1 hneg)]

theorem natCast_two_pow_pos (n : Nat) : (0 : Int) < (2 ^ n : Nat) :=
  Int.natCast_pos.2 (Nat.pow_pos (by decide))

theorem lt_ofInt (ha : f.HasInt a) (hb : f.HasInt b) :
    (ofInt f a).lt (ofInt f b) = decide (a < b) := by
  rw [ofInt_eq_finite ha, ofInt_eq_finite hb]
  apply decide_eq_decide.2
  rw [signed_natAbs_mul, signed_natAbs_mul, Int.mul_lt_mul_right (natCast_two_pow_pos _)]

theorem le_ofInt (ha : f.HasInt a) (hb : f.HasInt b) :
    (ofInt f a).le (ofInt f b) = decide (a ≤ b) := by
  have hle : (ofInt f a).le (ofInt f b) = !(ofInt f b).lt (ofInt f a) := by
    rw [ofInt_eq_finite ha, ofInt_eq_finite hb]
    rfl
  rw [hle, lt_ofInt hb ha, ← decide_not]
  exact decide_eq_decide.2 Int.not_lt

theorem ofRatio_eq_ofInt {units i : Int} (hunits : units = i * (2 ^ f.scale : Nat)) {zero : Bool}
    (hzero : i = 0 → zero = false) :
    ofRatio f (if units = 0 then zero else decide (units < 0)) units.natAbs 1 = ofInt f i := by
  have hpos := natCast_two_pow_pos f.scale
  have hneg : units < 0 ↔ i < 0 :=
    calc units < 0 ↔ i * (2 ^ f.scale : Nat) < 0 * (2 ^ f.scale : Nat) := by
          rw [hunits, Int.zero_mul]
      _ ↔ i < 0 := Int.mul_lt_mul_right hpos
  have hzero' : units = 0 ↔ i = 0 := by
    rw [hunits, Int.mul_eq_zero]
    exact or_iff_left (Int.ne_of_gt hpos)
  have hsign : (if units = 0 then zero else decide (units < 0)) = decide (i < 0) := by
    split
    · rename_i hnone
      have hi := hzero'.1 hnone
      rw [hzero hi, hi]
      rfl
    · exact decide_eq_decide.2 hneg
  rw [hsign, hunits, Int.natAbs_mul, Int.natAbs_natCast, ofInt]

theorem ofInt_add (ha : f.HasInt a) (hb : f.HasInt b) :
    ofInt f a + ofInt f b = ofInt f (a + b) := by
  rw [ofInt_eq_finite ha, ofInt_eq_finite hb]
  apply ofRatio_eq_ofInt
  · rw [signed_natAbs_mul, signed_natAbs_mul, Int.add_mul]
  · intro hzero
    rw [Bool.and_eq_false_iff, decide_eq_false_iff_not, decide_eq_false_iff_not]
    omega

theorem ofInt_sub (ha : f.HasInt a) (hb : f.HasInt b) :
    ofInt f a - ofInt f b = ofInt f (a - b) := by
  rw [ofInt_eq_finite ha, ofInt_eq_finite hb]
  apply ofRatio_eq_ofInt
  · rw [signed_not, signed_natAbs_mul, signed_natAbs_mul, Int.sub_mul]
    rfl
  · intro hzero
    have heq : a = b := by omega
    rw [heq, Bool.and_not_self]

theorem ofNat_eq_finite {n : Nat} (h : f.HasInt n) :
    ofNat f n = finite false (n * 2 ^ f.scale) h :=
  ofInt_eq_finite h

theorem ofRatio_congr (negative : Bool) {num den num' den' : Nat}
    (h : f.round num den = f.round num' den') :
    ofRatio f negative num den = ofRatio f negative num' den' := by
  unfold ofRatio
  simp only [h]

theorem ofNat_mul {m n : Nat} (hm : f.HasInt m) (hn : f.HasInt n) :
    ofNat f m * ofNat f n = ofNat f (m * n) := by
  rw [ofNat_eq_finite hm, ofNat_eq_finite hn]
  have hpos : 0 < 2 ^ f.scale := Nat.pow_pos (by decide)
  show ofRatio f false (m * 2 ^ f.scale * (n * 2 ^ f.scale)) (2 ^ f.scale) =
    ofRatio f false (m * n * 2 ^ f.scale) 1
  apply ofRatio_congr
  rw [← f.round_mul_right _ 1 hpos, Nat.one_mul]
  congr 1
  ac_rfl

/-- Zero times a number is zero, unless the number is too large for the format. -/
theorem ofNat_zero_mul {n k : Nat} (hn : n < 2 ^ k) (hk : k + f.scale < f.limit) :
    ofNat f 0 * ofNat f n = ofNat f 0 := by
  have hround : f.round (n * 2 ^ f.scale) 1 < 2 ^ f.limit :=
    calc f.round (n * 2 ^ f.scale) 1 ≤ 2 * (n * 2 ^ f.scale) := f.round_le _
      _ < 2 * (2 ^ k * 2 ^ f.scale) :=
        Nat.mul_lt_mul_of_pos_left (Nat.mul_lt_mul_of_pos_right hn (Nat.pow_pos (by decide)))
          (by decide)
      _ = 2 ^ (k + f.scale + 1) := by rw [Nat.pow_succ, Nat.pow_add, Nat.mul_comm]
      _ ≤ 2 ^ f.limit := Nat.pow_le_pow_right (by decide) hk
  have hfinite : ofNat f n =
      finite false (f.round (n * 2 ^ f.scale) 1) (f.fits_round _ _ hround) :=
    dif_pos hround
  have hcancel : f.round (0 * 2 ^ f.scale * f.round (n * 2 ^ f.scale) 1) (2 ^ f.scale) =
      f.round (0 * 2 ^ f.scale) 1 := by
    simp [Format.round, roundHalfEven]
  rw [hfinite]
  calc ofNat f 0 * finite false (f.round (n * 2 ^ f.scale) 1) _
      = ofRatio f false (0 * 2 ^ f.scale * f.round (n * 2 ^ f.scale) 1) (2 ^ f.scale) := by
        rw [ofNat_eq_finite f.hasInt_zero]
        rfl
    _ = ofNat f 0 := ofRatio_congr false hcancel

end Floating

end DashboardFilters
