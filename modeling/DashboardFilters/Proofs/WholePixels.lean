import DashboardFilters.Proofs.WholeNumbers
import DashboardFilters.Row.Fit

/-!
Rows whose lengths are whole pixels. As long as all lengths stay within the precision every sum on
the way is exact, so the row is laid out as it would be with integers.
-/

namespace DashboardFilters

-- Unfolded, a length would be computed down to its bits.
@[irreducible] def pixels (i : Int) : Binary32 :=
  .ofInt .binary32 i

theorem pixels_eq (i : Int) : pixels i = .ofInt .binary32 i := by
  unfold pixels
  rfl

theorem ofNat_eq_pixels (n : Nat) : Floating.ofNat .binary32 n = pixels n :=
  (pixels_eq n).symm

theorem literal_eq_pixels (n : Nat) : (OfNat.ofNat n : Binary32) = pixels n :=
  ofNat_eq_pixels n

structure PixelExtent where
  id : FilterId
  width : Nat

def PixelExtent.measured (item : PixelExtent) : ItemExtent :=
  { id := item.id, width := pixels item.width }

@[simp] theorem PixelExtent.measured_width (item : PixelExtent) :
    item.measured.width = pixels item.width := by
  rw [measured]

def totalWidth (items : List PixelExtent) : Nat :=
  (items.map (·.width)).sum

structure PixelMetrics where
  spacing : Nat
  padding : Nat
  triggerWidth : Nat

namespace PixelMetrics

def measured (metrics : PixelMetrics) : RowMetrics :=
  { spacing := pixels metrics.spacing
    padding := pixels metrics.padding
    triggerWidth := pixels metrics.triggerWidth }

@[simp] theorem measured_spacing (metrics : PixelMetrics) :
    metrics.measured.spacing = pixels metrics.spacing := by
  rw [measured]

@[simp] theorem measured_padding (metrics : PixelMetrics) :
    metrics.measured.padding = pixels metrics.padding := by
  rw [measured]

@[simp] theorem measured_triggerWidth (metrics : PixelMetrics) :
    metrics.measured.triggerWidth = pixels metrics.triggerWidth := by
  rw [measured]

/-- Where the items end if each is followed by a spacing. -/
def reach (metrics : PixelMetrics) (items : List PixelExtent) : Nat :=
  (items.map fun item => item.width + metrics.spacing).sum

/-- The lengths of the row that are within the precision. -/
structure Precise (metrics : PixelMetrics) (width : Nat) (items : List PixelExtent) : Prop where
  width : width ≤ 2 ^ 24
  padding : 2 * metrics.padding ≤ 2 ^ 24
  trigger : metrics.triggerWidth + metrics.spacing ≤ 2 ^ 24
  items : metrics.reach items ≤ 2 ^ 24

variable {metrics : PixelMetrics} {items : List PixelExtent} {width : Nat}

theorem reach_nil (metrics : PixelMetrics) : metrics.reach [] = 0 :=
  rfl

theorem reach_cons (metrics : PixelMetrics) (item : PixelExtent) (items : List PixelExtent) :
    metrics.reach (item :: items) = item.width + metrics.spacing + metrics.reach items :=
  rfl

theorem reach_eq (metrics : PixelMetrics) (items : List PixelExtent) :
    metrics.reach items = totalWidth items + metrics.spacing * items.length := by
  induction items with
  | nil => rfl
  | cons item items ih =>
      rw [reach_cons, ih, totalWidth, totalWidth, List.map_cons, List.sum_cons, List.length_cons,
        Nat.mul_succ]
      omega

theorem reach_append (metrics : PixelMetrics) (first second : List PixelExtent) :
    metrics.reach (first ++ second) = metrics.reach first + metrics.reach second := by
  rw [reach, List.map_append, List.sum_append_nat]
  rfl

theorem reach_take {k : Nat} (h : k ≤ items.length) :
    metrics.reach (items.take k) = totalWidth (items.take k) + metrics.spacing * k := by
  rw [reach_eq, List.length_take_of_le h]

theorem row_le_reach (metrics : PixelMetrics) (items : List PixelExtent) :
    totalWidth items + metrics.spacing * (items.length - 1) ≤ metrics.reach items := by
  rw [reach_eq]
  exact Nat.add_le_add_left (Nat.mul_le_mul_left _ (Nat.sub_le _ _)) _

theorem reach_take_le (metrics : PixelMetrics) (items : List PixelExtent) {j k : Nat} (h : j ≤ k) :
    metrics.reach (items.take j) ≤ metrics.reach (items.take k) := by
  obtain ⟨n, rfl⟩ := Nat.exists_eq_add_of_le h
  rw [List.take_add, reach_append]
  exact Nat.le_add_right _ _

end PixelMetrics

section Sums

variable {i j : Int} {m n : Nat}

theorem pixels_add (hi : i.natAbs ≤ 2 ^ 24) (hj : j.natAbs ≤ 2 ^ 24) :
    pixels i + pixels j = pixels (i + j) := by
  rw [pixels_eq, pixels_eq, pixels_eq]
  exact Floating.ofInt_add (Format.hasInt_binary32 hi) (Format.hasInt_binary32 hj)

theorem pixels_sub (hi : i.natAbs ≤ 2 ^ 24) (hj : j.natAbs ≤ 2 ^ 24) :
    pixels i - pixels j = pixels (i - j) := by
  rw [pixels_eq, pixels_eq, pixels_eq]
  exact Floating.ofInt_sub (Format.hasInt_binary32 hi) (Format.hasInt_binary32 hj)

theorem pixels_mul (hm : m ≤ 2 ^ 24) (hn : n ≤ 2 ^ 24) :
    pixels m * pixels n = pixels (m * n : Nat) := by
  rw [← ofNat_eq_pixels, ← ofNat_eq_pixels, ← ofNat_eq_pixels]
  exact Floating.ofNat_mul (Format.hasInt_binary32 hm) (Format.hasInt_binary32 hn)

theorem pixels_zero_mul (h : n < 2 ^ 64) : pixels (0 : Nat) * pixels n = pixels (0 : Nat) := by
  rw [← ofNat_eq_pixels, ← ofNat_eq_pixels]
  exact Floating.ofNat_zero_mul h (by decide)

theorem isFinite_pixels (hi : i.natAbs ≤ 2 ^ 24) : (pixels i).isFinite = true := by
  rw [pixels_eq]
  exact Floating.isFinite_ofInt (Format.hasInt_binary32 hi)

theorem lt_pixels (hi : i.natAbs ≤ 2 ^ 24) (hj : j.natAbs ≤ 2 ^ 24) :
    (pixels i).lt (pixels j) = decide (i < j) := by
  rw [pixels_eq, pixels_eq]
  exact Floating.lt_ofInt (Format.hasInt_binary32 hi) (Format.hasInt_binary32 hj)

theorem le_pixels (hi : i.natAbs ≤ 2 ^ 24) (hj : j.natAbs ≤ 2 ^ 24) :
    (pixels i).le (pixels j) = decide (i ≤ j) := by
  rw [pixels_eq, pixels_eq]
  exact Floating.le_ofInt (Format.hasInt_binary32 hi) (Format.hasInt_binary32 hj)

theorem foldl_measured (items : List PixelExtent) (start : Nat)
    (h : start + totalWidth items ≤ 2 ^ 24) :
    (items.map PixelExtent.measured).foldl (fun sum item => sum + item.width) (pixels start) =
      pixels (start + totalWidth items : Nat) := by
  induction items generalizing start with
  | nil =>
      have htotal : totalWidth [] = 0 := rfl
      rw [htotal, Nat.add_zero, List.map_nil, List.foldl_nil]
  | cons item items ih =>
      have htotal : totalWidth (item :: items) = item.width + totalWidth items := rfl
      rw [htotal] at h ⊢
      rw [List.map_cons, List.foldl_cons, PixelExtent.measured_width,
        pixels_add (by omega) (by omega), ← Int.natCast_add, ih _ (by omega), Nat.add_assoc]

end Sums

namespace PixelMetrics

variable {metrics : PixelMetrics} {items : List PixelExtent} {width : Nat}

theorem spacings_eq (hspacing : metrics.spacing ≤ 2 ^ 24) (h : metrics.reach items ≤ 2 ^ 24) :
    pixels metrics.spacing * pixels (items.length.toUInt64.toNat - 1 : Nat) =
      pixels (metrics.spacing * (items.length - 1) : Nat) := by
  rcases Nat.eq_zero_or_pos metrics.spacing with hnone | hsome
  · rw [hnone, Nat.zero_mul]
    exact pixels_zero_mul (Nat.lt_of_le_of_lt (Nat.sub_le _ _) (UInt64.toNat_lt _))
  · rw [reach_eq] at h
    have hlength : items.length ≤ metrics.spacing * items.length :=
      Nat.le_mul_of_pos_left _ hsome
    have hsize : 2 ^ 24 < UInt64.size := by decide
    have hword : items.length.toUInt64.toNat = items.length :=
      UInt64.toNat_ofNat_of_lt' (by omega)
    rw [hword, pixels_mul hspacing (by omega)]

theorem total_measured (hspacing : metrics.spacing ≤ 2 ^ 24) (h : metrics.reach items ≤ 2 ^ 24) :
    metrics.measured.total (items.map PixelExtent.measured) =
      pixels (totalWidth items + metrics.spacing * (items.length - 1) : Nat) := by
  have hrow := metrics.row_le_reach items
  have hwidths := foldl_measured items 0 (by omega)
  rw [Nat.zero_add] at hwidths
  rw [RowMetrics.total, List.length_map, ofNat_eq_pixels, measured_spacing, literal_eq_pixels 0,
    hwidths, spacings_eq hspacing h, pixels_add (by omega) (by omega), ← Int.natCast_add]

theorem inner_measured (hwidth : width ≤ 2 ^ 24) (hpadding : 2 * metrics.padding ≤ 2 ^ 24) :
    metrics.measured.inner (pixels width) = pixels (width - 2 * metrics.padding) := by
  have hdouble : pixels metrics.padding * 2 = pixels (2 * metrics.padding : Nat) := by
    rw [literal_eq_pixels 2, pixels_mul (by omega) (by decide), Nat.mul_comm]
  rw [RowMetrics.inner, measured_padding, hdouble, pixels_sub (by omega) (by omega)]
  rfl

theorem exists_hiddenFrom (metrics : PixelMetrics) (items : List PixelExtent) (stop : Int)
    (position : Nat) (hstop : (stop - metrics.spacing).natAbs ≤ 2 ^ 24)
    (hreach : position + metrics.reach items ≤ 2 ^ 24) :
    ∃ k, k ≤ items.length ∧
      metrics.measured.hiddenFrom (pixels (stop - metrics.spacing)) (pixels position)
          (items.map PixelExtent.measured) =
        (items.drop k).map PixelExtent.measured ∧
      (0 < k → position + metrics.reach (items.take k) ≤ stop) ∧
      (k < items.length → stop < position + metrics.reach (items.take (k + 1))) := by
  induction items generalizing position with
  | nil =>
      exact ⟨0, Nat.le_refl 0, rfl, fun h => absurd h (by decide), fun h => absurd h (by decide)⟩
  | cons item items ih =>
      rw [reach_cons] at hreach
      have hnext : pixels position + (pixels item.width + pixels metrics.spacing) =
          pixels (position + (item.width + metrics.spacing) : Nat) := by
        rw [pixels_add (by omega) (by omega), pixels_add (by omega) (by omega)]
        rfl
      rw [List.map_cons, RowMetrics.hiddenFrom, PixelExtent.measured_width, measured_spacing,
        hnext, pixels_add (by omega) (by omega), lt_pixels hstop (by omega)]
      by_cases hhides : stop - metrics.spacing < position + item.width
      · rw [decide_eq_true hhides, if_pos rfl]
        refine ⟨0, Nat.zero_le _, rfl, fun h => absurd h (by decide), fun _ => ?_⟩
        rw [List.take_succ_cons, reach_cons, List.take_zero, reach_nil]
        omega
      · rw [decide_eq_false hhides, if_neg (by decide)]
        have hrest : position + (item.width + metrics.spacing) + metrics.reach items ≤ 2 ^ 24 := by
          omega
        obtain ⟨k, hk, heq, hfits, hends⟩ := ih _ hrest
        refine ⟨k + 1, Nat.succ_le_succ hk, heq, fun _ => ?_, fun hlt => ?_⟩
        · rw [List.take_succ_cons, reach_cons]
          rcases Nat.eq_zero_or_pos k with rfl | hpos
          · rw [List.take_zero, reach_nil]
            omega
          · have := hfits hpos
            omega
        · have := hends (Nat.lt_of_succ_lt_succ hlt)
          rw [List.take_succ_cons, reach_cons]
          omega

theorem fit_measured (h : metrics.Precise width items) :
    metrics.measured.fit (pixels width) (items.map PixelExtent.measured) =
      if width ≤ 2 * metrics.padding then .unavailable
      else if totalWidth items + metrics.spacing * (items.length - 1) ≤ width - 2 * metrics.padding
        then .overflowed []
      else .overflowed ((metrics.measured.hiddenFrom
        (pixels (width - 2 * metrics.padding - metrics.triggerWidth - metrics.spacing))
        (pixels (0 : Nat)) (items.map PixelExtent.measured)).map (·.id)) := by
  obtain ⟨hwidth, hpadding, htrigger, hreach⟩ := h
  have hroom : ((width : Int) - 2 * metrics.padding).natAbs ≤ 2 ^ 24 := by omega
  have htotal := metrics.row_le_reach items
  rw [RowMetrics.fit, inner_measured hwidth hpadding, isFinite_pixels hroom, literal_eq_pixels 0,
    le_pixels hroom (by decide), total_measured (by omega) hreach, le_pixels (by omega) hroom]
  by_cases hnarrow : width ≤ 2 * metrics.padding
  · rw [if_pos hnarrow, decide_eq_true (by omega)]
    rfl
  · rw [if_neg hnarrow, decide_eq_false (by omega)]
    by_cases hfits : totalWidth items + metrics.spacing * (items.length - 1) ≤
        width - 2 * metrics.padding
    · rw [if_pos hfits, decide_eq_true (by omega)]
      rfl
    · rw [if_neg hfits, decide_eq_false (by omega), measured_triggerWidth, measured_spacing,
        pixels_sub hroom (by omega), pixels_sub (by omega) (by omega)]
      rfl

/-- The items from the `k`th on are hidden: those before it end before the trigger, each followed by
a spacing, and any more do not. -/
structure Cuts (metrics : PixelMetrics) (room : Nat) (items : List PixelExtent) (k : Nat) :
    Prop where
  lt_length : k < items.length
  fits : 0 < k →
    totalWidth (items.take k) + metrics.spacing * k + metrics.triggerWidth ≤ room
  maximal : ∀ j, k < j → j ≤ items.length →
    room < totalWidth (items.take j) + metrics.spacing * j + metrics.triggerWidth

theorem exists_cut (h : metrics.Precise width items) (hwide : 2 * metrics.padding < width)
    (hlong : width - 2 * metrics.padding <
      totalWidth items + metrics.spacing * (items.length - 1)) :
    ∃ k, metrics.Cuts (width - 2 * metrics.padding) items k ∧
      metrics.measured.fit (pixels width) (items.map PixelExtent.measured) =
        .overflowed ((items.drop k).map (·.id)) := by
  have hfit := fit_measured h
  rw [if_neg (by omega), if_neg (by omega)] at hfit
  obtain ⟨hwidth, hpadding, htrigger, hreach⟩ := h
  obtain ⟨k, hk, hhidden, hfits, hends⟩ := metrics.exists_hiddenFrom items
    (width - 2 * metrics.padding - metrics.triggerWidth) 0 (by omega) (by omega)
  have hlt : k < items.length := by
    have hrow := metrics.row_le_reach items
    rcases Nat.eq_zero_or_pos items.length with hnone | hsome
    · rw [List.length_eq_zero_iff.1 hnone] at hlong
      exact absurd hlong (Nat.not_lt_zero _)
    rcases Nat.lt_or_eq_of_le hk with hlt | rfl
    · exact hlt
    · have hend := hfits hsome
      rw [List.take_length] at hend
      omega
  refine ⟨k, ⟨hlt, fun hpos => ?_, fun j hj hjle => ?_⟩, ?_⟩
  · have hend := hfits hpos
    rw [reach_take hk] at hend
    omega
  · have hend := hends hlt
    have hle := metrics.reach_take_le items (Nat.succ_le_of_lt hj)
    rw [reach_take hjle, Nat.succ_eq_add_one] at hle
    omega
  · rw [hfit, hhidden, List.map_map]
    rfl

/-- The measurement is the one that integers give. -/
structure LaysOut (metrics : PixelMetrics) (width : Nat) (items : List PixelExtent)
    (measurement : Measurement) : Prop where
  unavailable : measurement = .unavailable ↔ width ≤ 2 * metrics.padding
  inline : 2 * metrics.padding < width →
    (measurement = .overflowed [] ↔ items = [] ∨
      totalWidth items + metrics.spacing * (items.length - 1) ≤ width - 2 * metrics.padding)
  hidden : 2 * metrics.padding < width → measurement ≠ .overflowed [] →
    ∃ k, metrics.Cuts (width - 2 * metrics.padding) items k ∧
      measurement = .overflowed ((items.drop k).map (·.id))

theorem laysOut_fit (metrics : PixelMetrics) (width : Nat) (items : List PixelExtent)
    (h : metrics.Precise width items) :
    metrics.LaysOut width items
      (metrics.measured.fit (pixels width) (items.map PixelExtent.measured)) := by
  have hfit := fit_measured h
  constructor
  case unavailable =>
    constructor
    · intro hunavailable
      rw [hfit] at hunavailable
      split at hunavailable
      · assumption
      · split at hunavailable <;> cases hunavailable
    · intro hnarrow
      rw [hfit, if_pos hnarrow]
  case inline =>
    intro hwide
    constructor
    · intro hnone
      refine .inr (Nat.not_lt.1 fun hlong => ?_)
      obtain ⟨k, hcut, hhidden⟩ := exists_cut h hwide hlong
      rw [hnone, Measurement.overflowed.injEq, eq_comm, List.map_eq_nil_iff,
        List.drop_eq_nil_iff] at hhidden
      exact absurd hcut.lt_length (Nat.not_lt.2 hhidden)
    · intro hinline
      have hfits : totalWidth items + metrics.spacing * (items.length - 1) ≤
          width - 2 * metrics.padding := by
        rcases hinline with rfl | hfits
        · exact Nat.zero_le _
        · exact hfits
      rw [hfit, if_neg (by omega), if_pos hfits]
  case hidden =>
    intro hwide hsome
    apply exists_cut h hwide
    apply Nat.not_le.1
    intro hfits
    apply hsome
    rw [hfit, if_neg (by omega), if_pos hfits]

theorem laysOut_three :
    let metrics : PixelMetrics := { spacing := 8, padding := 16, triggerWidth := 120 }
    let items : List PixelExtent := [⟨⟨"Sales7"⟩, 60⟩, ⟨⟨"a"⟩, 60⟩, ⟨⟨"b"⟩, 60⟩]
    metrics.Precise 220 items ∧ metrics.LaysOut 220 items
      (metrics.measured.fit (pixels 220) (items.map PixelExtent.measured)) := by
  intro metrics items
  have hprecise : metrics.Precise 220 items :=
    ⟨by decide, by decide, by decide, by decide⟩
  clear_value metrics items
  exact ⟨hprecise, laysOut_fit metrics 220 items hprecise⟩

end PixelMetrics

end DashboardFilters
