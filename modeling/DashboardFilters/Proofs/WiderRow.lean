import DashboardFilters.Proofs.MeasuredRow
import DashboardFilters.Proofs.RoundingOrder

/-!
Rows of different widths. Whether everything fits is decided without the trigger and where the row
is cut with it, and both with rounded lengths; still a wider row hides no item that a narrower one
shows.
-/

namespace DashboardFilters

namespace RowMetrics

variable {metrics : RowMetrics} {width : Binary32} {items : List ItemExtent} {ids : List FilterId}

theorem fit_eq_overflowed (h : metrics.fit width items = .overflowed ids) :
    (metrics.inner width).isFinite = true ∧
      ids = if (metrics.total items).le (metrics.inner width) then []
        else (metrics.hiddenFrom (metrics.inner width - metrics.triggerWidth - metrics.spacing) 0
          items).map (·.id) := by
  rw [fit] at h
  split at h
  · cases h
  · rename_i hroom
    rw [Bool.not_eq_true, Bool.or_eq_false_iff, Bool.not_eq_false'] at hroom
    refine ⟨hroom.1, ?_⟩
    split at h
    · rename_i hfits
      rw [if_pos hfits]
      exact (Measurement.overflowed.inj h).symm
    · rename_i hfits
      rw [if_neg hfits]
      exact (Measurement.overflowed.inj h).symm

theorem hiddenFrom_suffix_hiddenFrom {near far : Binary32}
    (h : ∀ reach, far.lt reach = true → near.lt reach = true) (position : Binary32)
    (items : List ItemExtent) :
    metrics.hiddenFrom far position items <:+ metrics.hiddenFrom near position items := by
  induction items generalizing position with
  | nil => exact List.suffix_refl []
  | cons item rest ih =>
      cases hnear : near.lt (position + item.width) with
      | true =>
          have hall : metrics.hiddenFrom near position (item :: rest) = item :: rest := by
            rw [hiddenFrom, hnear]
            rfl
          rw [hall]
          exact metrics.hiddenFrom_suffix far position (item :: rest)
      | false =>
          have hfar : far.lt (position + item.width) = false := by
            rw [← Bool.not_eq_true]
            intro hreaches
            rw [h _ hreaches] at hnear
            cases hnear
          rw [hiddenFrom, hiddenFrom, hnear, hfar]
          exact ih _

theorem limit_lt {room wider reach : Binary32} (hroom : room.isFinite = true)
    (hwider : wider.isFinite = true) (hle : room.le wider = true)
    (h : (wider - metrics.triggerWidth - metrics.spacing).lt reach = true) :
    (room - metrics.triggerWidth - metrics.spacing).lt reach = true := by
  have htrigger : metrics.triggerWidth ≠ .nan := by
    intro hnan
    rw [hnan, Floating.sub_nan] at h
    cases h
  apply Floating.sub_lt_of_le _ h
  exact Floating.sub_le_sub_right hle (Floating.sub_ne_nan hroom htrigger)
    (Floating.sub_ne_nan hwider htrigger)

end RowMetrics

/-- Of two measured widths the larger one hides a suffix of what the smaller one hides, whatever the
lengths are. -/
theorem hidden_suffix_of_wider (metrics : RowMetrics) (items : List ItemExtent)
    {narrow wide : Binary32} {hidden hidden' : List FilterId} (hle : narrow.le wide = true)
    (hnarrow : metrics.fit narrow items = .overflowed hidden)
    (hwide : metrics.fit wide items = .overflowed hidden') : hidden' <:+ hidden := by
  obtain ⟨hroom, rfl⟩ := RowMetrics.fit_eq_overflowed hnarrow
  obtain ⟨hroom', rfl⟩ := RowMetrics.fit_eq_overflowed hwide
  have hinner : (metrics.inner narrow).le (metrics.inner wide) = true :=
    Floating.sub_le_sub_right hle (Floating.ne_nan_of_isFinite hroom)
      (Floating.ne_nan_of_isFinite hroom')
  by_cases hfits : (metrics.total items).le (metrics.inner wide) = true
  · rw [if_pos hfits]
    exact List.nil_suffix
  · have hlong : ¬ (metrics.total items).le (metrics.inner narrow) = true :=
      fun hnarrow => hfits (Floating.le_trans hnarrow hinner)
    rw [if_neg hfits, if_neg hlong]
    apply List.IsSuffix.map
    apply RowMetrics.hiddenFrom_suffix_hiddenFrom
    exact fun reach => RowMetrics.limit_lt hroom hroom' hinner

/-- A row whose last item never fits is cut one item later. -/
theorem hidden_suffix_of_three :
    let metrics : RowMetrics := {}
    let items : List ItemExtent :=
      [⟨⟨"a"⟩, 60⟩, ⟨⟨"b"⟩, 60⟩, ⟨⟨"c"⟩, 60⟩, ⟨⟨"d"⟩, .infinite false⟩]
    (220 : Binary32).le 300 = true ∧
      metrics.fit 220 items = .overflowed [⟨"b"⟩, ⟨"c"⟩, ⟨"d"⟩] ∧
        metrics.fit 300 items = .overflowed [⟨"c"⟩, ⟨"d"⟩] ∧
          ([⟨"c"⟩, ⟨"d"⟩] : List FilterId) <:+ [⟨"b"⟩, ⟨"c"⟩, ⟨"d"⟩] := by
  intro metrics items
  have hle : (220 : Binary32).le 300 = true := by decide +kernel
  have hnarrow : metrics.fit 220 items = .overflowed [⟨"b"⟩, ⟨"c"⟩, ⟨"d"⟩] := by decide +kernel
  have hwide : metrics.fit 300 items = .overflowed [⟨"c"⟩, ⟨"d"⟩] := by decide +kernel
  clear_value metrics items
  exact ⟨hle, hnarrow, hwide, hidden_suffix_of_wider metrics items hle hnarrow hwide⟩

end DashboardFilters
