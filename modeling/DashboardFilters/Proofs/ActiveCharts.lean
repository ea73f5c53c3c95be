import DashboardFilters.Proofs.CrossFilterIds

/-!
The charts that contribute a cross-filter. A chart is active if its mask holds a selection and
restricts a column; its cross-filter then has a column and a label, and its path ends at the chart.
What the sources hold of one chart does not reach the cross-filters of the others.
-/

namespace DashboardFilters

theorem Floating.isZero_iff {f : Format} {d : Floating f} :
    d.isZero = true ↔ ∃ negative, d = .zero negative := by
  constructor
  · intro hzero
    cases d with
    | nan => cases hzero
    | infinite negative => cases hzero
    | finite negative units fits =>
        obtain rfl : units = 0 := by simpa [isZero] using hzero
        exact ⟨negative, rfl⟩
  · rintro ⟨negative, rfl⟩
    rfl

inductive Json.Blank : Json → Prop where
  | null : Blank .null
  | no : Blank (.bool false)
  | zero : Blank (.integer 0)
  | floatingZero (negative : Bool) : Blank (.double (.zero negative))
  | empty : Blank (.string "")

theorem Json.isTruthy_iff {value : Json} : value.isTruthy = true ↔ ¬ value.Blank := by
  rw [← Bool.not_eq_false, not_iff_not]
  constructor
  · intro hvalue
    cases value with
    | null => exact .null
    | bool b =>
        cases b with
        | false => exact .no
        | true => cases hvalue
    | integer i =>
        have hzero : i = 0 := by simpa [isTruthy] using hvalue
        exact hzero ▸ .zero
    | double d =>
        obtain ⟨negative, hzero⟩ := Floating.isZero_iff.1 (by simpa [isTruthy] using hvalue)
        exact hzero ▸ .floatingZero negative
    | string s =>
        have hempty : s = "" := by simpa [isTruthy] using hvalue
        exact hempty ▸ .empty
    | array items => cases hvalue
    | object fields => cases hvalue
  · intro hblank
    cases hblank with
    | floatingZero negative =>
        have hzero : (Floating.zero negative : Binary64).isZero = true :=
          Floating.isZero_iff.2 ⟨negative, rfl⟩
        rw [isTruthy, hzero]
        rfl
    | _ => rfl

theorem Selection.isSome_label?_iff {selection : Selection} :
    selection.label?.isSome = true ↔
      (∃ label, selection.label = some label ∧ isComplete label = true) ∨
        ∃ value, selection.value = some value ∧ ¬ value.Blank := by
  simp only [← Json.isTruthy_iff, ← Option.filter_eq_some_iff]
  unfold label?
  cases selection.label.filter isComplete with
  | some label => simp
  | none =>
      cases selection.value.filter Json.isTruthy with
      | none => simp
      | some value => cases value <;> simp

namespace CrossFilterSources

variable {sources other : CrossFilterSources} {chart : ChartId} {filter : CrossFilter}

/-- Something is selected in the chart, and the selection restricts a column. -/
def Active (sources : CrossFilterSources) (chart : ChartId) : Prop :=
  ∃ mask value, sources.masks.get? chart = some mask ∧
    mask.selection.value = some value ∧ ¬ value.Blank ∧ mask.restrictions ≠ []

theorem crossFilterOf_eq_some_iff : sources.crossFilterOf chart = some filter ↔
    ∃ mask value restriction others, sources.masks.get? chart = some mask ∧
      mask.selection.value = some value ∧ ¬ value.Blank ∧
      mask.restrictions = restriction :: others ∧
      filter = {
        chart
        name := ((sources.placeOf chart).getD {}).displayName
        column := some (sources.columnName chart restriction.column)
        value := mask.selection.label?
        path := ((sources.placeOf chart).getD {}).parents ++
          [((sources.placeOf chart).getD {}).id] } := by
  simp only [crossFilterOf, Option.bind_eq_bind, Option.bind_eq_some_iff, Option.filter_eq_some_iff,
    Json.isTruthy_iff, List.head?_eq_some_iff, Option.pure_def, Option.some.injEq]
  constructor
  · rintro ⟨mask, hmask, value, ⟨hvalue, hselected⟩, restriction, ⟨others, hothers⟩, hfilter⟩
    exact ⟨mask, value, restriction, others, hmask, hvalue, hselected, hothers, hfilter.symm⟩
  · rintro ⟨mask, value, restriction, others, hmask, hvalue, hselected, hothers, hfilter⟩
    exact ⟨mask, hmask, value, ⟨hvalue, hselected⟩, restriction, ⟨others, hothers⟩, hfilter.symm⟩

theorem isSome_crossFilterOf_iff :
    (sources.crossFilterOf chart).isSome = true ↔ sources.Active chart := by
  rw [Option.isSome_iff_exists]
  constructor
  · rintro ⟨filter, hfilter⟩
    obtain ⟨mask, value, restriction, others, hmask, hvalue, hselected, hothers, -⟩ :=
      crossFilterOf_eq_some_iff.1 hfilter
    exact ⟨mask, value, hmask, hvalue, hselected, by simp [hothers]⟩
  · rintro ⟨mask, value, hmask, hvalue, hselected, hrestrictions⟩
    obtain ⟨restriction, others, hothers⟩ := List.exists_cons_of_ne_nil hrestrictions
    exact ⟨_, crossFilterOf_eq_some_iff.2
      ⟨mask, value, restriction, others, hmask, hvalue, hselected, hothers, rfl⟩⟩

instance : DecidablePred sources.Active :=
  fun _ => decidable_of_iff _ isSome_crossFilterOf_iff

theorem map_chart_select_active (sources : CrossFilterSources) :
    sources.select.map (·.chart) = sources.charts.filter sources.Active := by
  rw [map_chart_select]
  apply List.filter_congr
  intro chart _
  rw [Bool.eq_iff_iff, isSome_crossFilterOf_iff, decide_eq_true_iff]

def placesOf (sources : CrossFilterSources) (chart : ChartId) : List ChartPlace :=
  sources.places.filter (·.chart = chart)

theorem placeOf_eq_getLast? (sources : CrossFilterSources) (chart : ChartId) :
    sources.placeOf chart = (sources.placesOf chart).getLast? := by
  rw [placeOf, placesOf, ← List.head?_filter, List.filter_reverse, List.head?_reverse]
  rfl

/-- The cross-filter shows a column that the selection restricts and a label, and its path ends at
the last place of the chart, or at an empty name if the chart has no place. -/
structure Describes (sources : CrossFilterSources) (filter : CrossFilter) : Prop where
  selection : ∃ mask restriction others, sources.masks.get? filter.chart = some mask ∧
    mask.restrictions = restriction :: others ∧
    filter.column = some (sources.columnName filter.chart restriction.column) ∧
    filter.value = mask.selection.label?
  value : filter.value.isSome = true
  path : filter.path.getLast? =
    some (((sources.placesOf filter.chart).getLast?.map (·.id)).getD "")

theorem describes_of_crossFilterOf (h : sources.crossFilterOf chart = some filter) :
    sources.Describes filter := by
  obtain ⟨mask, value, restriction, others, hmask, hvalue, hselected, hothers, rfl⟩ :=
    crossFilterOf_eq_some_iff.1 h
  refine ⟨⟨mask, restriction, others, hmask, hothers, rfl, rfl⟩, ?_, ?_⟩
  · exact Selection.isSome_label?_iff.2 (.inr ⟨value, hvalue, hselected⟩)
  · rw [List.getLast?_concat, placeOf_eq_getLast?]
    cases (sources.placesOf chart).getLast? with
    | none => rfl
    | some place => rfl

/-- The sources differ in nothing but the mask, the places and the column names of one chart. -/
structure AgreesBut (chart : ChartId) (sources other : CrossFilterSources) : Prop where
  charts : sources.charts = other.charts
  masks : ∀ c ≠ chart, sources.masks.get? c = other.masks.get? c
  places : sources.places.filter (·.chart ≠ chart) = other.places.filter (·.chart ≠ chart)
  columnNames : ∀ c ≠ chart, sources.columnNames.get? c = other.columnNames.get? c

theorem agreesBut_insert (sources : CrossFilterSources) (chart : ChartId) (mask : DataMask)
    (names : SortedMap String String) {places : List ChartPlace}
    (hplaces : sources.places.filter (·.chart ≠ chart) = places.filter (·.chart ≠ chart)) :
    AgreesBut chart sources { sources with
      masks := sources.masks.insert chart mask
      columnNames := sources.columnNames.insert chart names
      places } where
  charts := rfl
  masks := fun c hne => by rw [SortedMap.get?_insert, if_neg hne]
  places := hplaces
  columnNames := fun c hne => by rw [SortedMap.get?_insert, if_neg hne]

theorem AgreesBut.placesOf_eq (h : AgreesBut chart sources other) {c : ChartId} (hne : c ≠ chart) :
    sources.placesOf c = other.placesOf c := by
  have hfilter : ∀ places : List ChartPlace, places.filter (·.chart = c) =
      (places.filter (·.chart ≠ chart)).filter (·.chart = c) := by
    intro places
    rw [List.filter_filter]
    apply List.filter_congr
    intro place _
    by_cases hplace : place.chart = c
    · simp [hplace, hne]
    · simp [hplace]
  rw [placesOf, placesOf, hfilter, h.places, ← hfilter]

theorem AgreesBut.crossFilterOf_eq (h : AgreesBut chart sources other) {c : ChartId}
    (hne : c ≠ chart) : sources.crossFilterOf c = other.crossFilterOf c := by
  simp only [crossFilterOf, columnName, placeOf_eq_getLast?, h.masks c hne, h.columnNames c hne,
    h.placesOf_eq hne]

theorem filter_chart_select (sources : CrossFilterSources) (chart : ChartId) :
    sources.select.filter (·.chart ≠ chart) =
      (sources.charts.filter (· ≠ chart)).filterMap sources.crossFilterOf := by
  rw [select, List.filter_filterMap, List.filterMap_filter]
  apply List.filterMap_congr
  intro c _
  cases hfilter : sources.crossFilterOf c with
  | none => simp
  | some filter =>
      rw [Option.filter_some, chart_of_crossFilterOf hfilter]

theorem AgreesBut.filter_select_eq (h : AgreesBut chart sources other) :
    sources.select.filter (·.chart ≠ chart) = other.select.filter (·.chart ≠ chart) := by
  rw [filter_chart_select, filter_chart_select, h.charts]
  apply List.filterMap_congr
  intro c hc
  exact h.crossFilterOf_eq (by simpa using (List.mem_filter.1 hc).2)

end CrossFilterSources

open CrossFilterSources

/-- The active charts contribute a cross-filter each time they are listed, in their order, and the
others none. Each cross-filter is described by what the sources hold of its own chart; whatever
changes there, the cross-filters of the other charts stay as they are. -/
theorem active_charts (sources : CrossFilterSources) :
    sources.select.map (·.chart) = sources.charts.filter sources.Active ∧
      (∀ filter ∈ sources.select, sources.Describes filter) ∧
      ∀ chart other, AgreesBut chart sources other →
        sources.select.filter (·.chart ≠ chart) = other.select.filter (·.chart ≠ chart) := by
  refine ⟨map_chart_select_active sources, ?_, ?_⟩
  · intro filter hfilter
    obtain ⟨chart, -, hfilter⟩ := List.mem_filterMap.1 hfilter
    exact describes_of_crossFilterOf hfilter
  · intro chart other hagrees
    exact hagrees.filter_select_eq

/-- Chart 3 is listed twice and has two places and a label made from missing data. The masks of
charts 1, 2 and 4 select nothing or restrict no column, and chart 5 has no place. Chart 3 then loses
its selection. -/
theorem active_charts_of_repeated :
    let restrictions : List Restriction := [{ column := "region", operator := "IN" }]
    let sources : CrossFilterSources := {
      masks := .ofList [
        (1, { selection := { value := some (.string ""), label := some "None" }, restrictions }),
        (2, { selection := { value := some (.integer 5) } }),
        (3, { selection := { value := some (.array [.string "EU", .integer 5]),
                             label := some "EU, undefined" }, restrictions }),
        (4, { selection := { value := some (.double (.zero true)) }, restrictions }),
        (5, { selection := { value := some (.bool true) }, restrictions })]
      charts := [3, 1, 5, 4, 3, 2, 6]
      places := [{ id := "old", chart := 3 }, { id := "map", chart := 1 },
        { id := "new", chart := 3, parents := ["root"] }]
      columnNames := .ofList [(5, .ofList [("region", "Region")])] }
    let other : CrossFilterSources := { sources with
      masks := sources.masks.insert 3 {}
      columnNames := sources.columnNames.insert 3 (.ofList [("region", "Area")])
      places := [{ id := "map", chart := 1 }] }
    sources.select.map (·.chart) = [3, 5, 3] ∧
      sources.select.map (·.column) = [some "region", some "Region", some "region"] ∧
      sources.select.map (·.value) = [some "EU, 5", some "true", some "EU, 5"] ∧
      sources.select.map (·.path) = [["root", "new"], [""], ["root", "new"]] ∧
      AgreesBut 3 sources other ∧
      sources.select.filter (·.chart ≠ 3) = other.select.filter (·.chart ≠ 3) ∧
      other.select.map (·.chart) = [5] := by
  intro restrictions sources other
  have hagrees : AgreesBut 3 sources other :=
    agreesBut_insert sources 3 {} (.ofList [("region", "Area")]) (by decide +kernel)
  obtain ⟨-, -, hothers⟩ := active_charts sources
  exact ⟨by decide +kernel, by decide +kernel, by decide +kernel, by decide +kernel, hagrees,
    hothers 3 other hagrees, by decide +kernel⟩

end DashboardFilters
