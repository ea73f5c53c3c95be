import DashboardFilters.Proofs.SlotIdentity
import Mathlib.Data.List.Nodup

/-!
The ids of cross-filters. A name and a chart number stand side by side in an id, and nothing marks
where the name ends. So the ids that different charts emit differ except where digits at the end of
one name stand for the first digits of the other's number.
-/

namespace DashboardFilters

namespace CrossFilter

variable {filter other : CrossFilter}

/-- The name is the other's name and the first digits of the other's chart number; the filter's own
chart number is the rest of them. -/
def Continues (filter other : CrossFilter) : Prop :=
  ∃ digits : String, digits ≠ "" ∧ filter.name = other.name ++ digits ∧
    toString other.chart.toNat = digits ++ toString filter.chart.toNat

theorem toList_id (filter : CrossFilter) :
    filter.id.text.toList = filter.name.toList ++ Nat.toDigits 10 filter.chart.toNat := by
  rw [id, FilterId.cross, String.toList_append, Nat.toString_eq_repr, Nat.toList_repr]

theorem chart_eq_of_toDigits
    (h : Nat.toDigits 10 filter.chart.toNat = Nat.toDigits 10 other.chart.toNat) :
    filter.chart = other.chart := by
  have hvalue := congrArg (Nat.ofDigitChars 10 · 0) h
  simp only [Nat.ofDigitChars_ten_toDigits] at hvalue
  exact UInt64.toNat_inj.1 hvalue

theorem Continues.id_eq (h : filter.Continues other) : filter.id = other.id := by
  obtain ⟨digits, -, hname, hnumber⟩ := h
  rw [id, id, FilterId.cross, FilterId.cross, hname, hnumber, String.append_assoc]

theorem eq_or_continues {digits : List Char}
    (hname : filter.name.toList = other.name.toList ++ digits)
    (hnumber : Nat.toDigits 10 other.chart.toNat = digits ++ Nat.toDigits 10 filter.chart.toNat) :
    (filter.name = other.name ∧ filter.chart = other.chart) ∨ filter.Continues other := by
  by_cases hdigits : digits = []
  · rw [hdigits, List.append_nil] at hname
    rw [hdigits, List.nil_append] at hnumber
    exact .inl ⟨String.toList_inj.1 hname, chart_eq_of_toDigits hnumber.symm⟩
  · refine .inr ⟨String.ofList digits, ?_, ?_, ?_⟩
    · intro hempty
      exact hdigits (by simpa using congrArg String.toList hempty)
    · apply String.toList_inj.1
      rw [hname, String.toList_append, String.toList_ofList]
    · rw [Nat.toString_eq_ofList_toDigits, Nat.toString_eq_ofList_toDigits, hnumber,
        String.ofList_append]

theorem id_eq_iff : filter.id = other.id ↔
    (filter.name = other.name ∧ filter.chart = other.chart) ∨
      filter.Continues other ∨ other.Continues filter := by
  constructor
  · intro hid
    have htext := congrArg (·.text.toList) hid
    simp only [toList_id] at htext
    rcases List.append_eq_append_iff.1 htext with hsplit | hsplit
    · obtain ⟨digits, hname, hnumber⟩ := hsplit
      rcases eq_or_continues hname hnumber with ⟨hname, hchart⟩ | hcontinues
      · exact .inl ⟨hname.symm, hchart.symm⟩
      · exact .inr (.inr hcontinues)
    · obtain ⟨digits, hname, hnumber⟩ := hsplit
      exact (eq_or_continues hname hnumber).imp_right .inl
  · intro hparts
    rcases hparts with ⟨hname, hchart⟩ | hcontinues | hcontinues
    · rw [id, id, hname, hchart]
    · exact hcontinues.id_eq
    · exact hcontinues.id_eq.symm

theorem not_continues_self (filter : CrossFilter) : ¬ filter.Continues filter := by
  intro hcontinues
  obtain ⟨digits, hdigits, hname, -⟩ := hcontinues
  have hself : filter.name ++ digits = filter.name ++ "" := by rw [← hname, String.append_empty]
  exact hdigits ((String.append_right_inj _).1 hself)

theorem not_continues_of_name
    (h : ∀ c, filter.name.toList.getLast? = some c → c.isDigit = false) :
    ¬ filter.Continues other := by
  intro hcontinues
  obtain ⟨digits, hdigits, hname, hnumber⟩ := hcontinues
  have hne : digits.toList ≠ [] := fun hnil => hdigits (String.toList_inj.1 hnil)
  have hlast : filter.name.toList.getLast? = some (digits.toList.getLast hne) := by
    rw [hname, String.toList_append, List.getLast?_append_of_ne_nil _ hne,
      List.getLast?_eq_some_getLast hne]
  have hmem : digits.toList.getLast hne ∈ Nat.toDigits 10 other.chart.toNat := by
    rw [← Nat.toList_repr, ← Nat.toString_eq_repr, hnumber, String.toList_append]
    exact List.mem_append_left _ (List.getLast_mem hne)
  have hdigit := Nat.isDigit_of_mem_toDigits (by decide) (by decide) hmem
  rw [h _ hlast] at hdigit
  cases hdigit

end CrossFilter

namespace CrossFilterSources

variable {sources : CrossFilterSources}

theorem chart_of_crossFilterOf {chart : ChartId} {filter : CrossFilter}
    (h : sources.crossFilterOf chart = some filter) : filter.chart = chart := by
  simp only [crossFilterOf, Option.bind_eq_bind, Option.bind_eq_some_iff] at h
  obtain ⟨mask, -, value, -, restriction, -, hfilter⟩ := h
  cases hfilter
  rfl

theorem map_chart_select (sources : CrossFilterSources) :
    sources.select.map (·.chart) =
      sources.charts.filter fun chart => (sources.crossFilterOf chart).isSome := by
  rw [select, List.map_filterMap, ← List.filterMap_eq_filter]
  congr 1
  funext chart
  cases hfilter : sources.crossFilterOf chart with
  | none => simp [Option.guard, hfilter]
  | some filter => simp [Option.guard, hfilter, chart_of_crossFilterOf hfilter]

theorem nodup_map_chart_select (h : sources.charts.Nodup) :
    (sources.select.map (·.chart)).Nodup := by
  rw [map_chart_select]
  exact h.filter _

theorem eq_of_chart_eq (h : sources.charts.Nodup) {filter other : CrossFilter}
    (hfilter : filter ∈ sources.select) (hother : other ∈ sources.select)
    (hchart : filter.chart = other.chart) : filter = other :=
  List.inj_on_of_nodup_map (nodup_map_chart_select h) hfilter hother hchart

theorem id_eq_iff_of_mem_select (h : sources.charts.Nodup) {filter other : CrossFilter}
    (hfilter : filter ∈ sources.select) (hother : other ∈ sources.select) :
    filter.id = other.id ↔
      filter = other ∨ filter.Continues other ∨ other.Continues filter := by
  rw [CrossFilter.id_eq_iff]
  constructor
  · intro hparts
    rcases hparts with ⟨-, hchart⟩ | hcontinues
    · exact .inl (eq_of_chart_eq h hfilter hother hchart)
    · exact .inr hcontinues
  · intro hparts
    rcases hparts with rfl | hcontinues
    · exact .inl ⟨rfl, rfl⟩
    · exact .inr hcontinues

theorem nodup_ids_select_iff (h : sources.charts.Nodup) :
    (sources.select.map (·.id)).Nodup ↔
      ∀ filter ∈ sources.select, ∀ other ∈ sources.select, ¬ filter.Continues other := by
  have hnodup : sources.select.Nodup := (nodup_map_chart_select h).of_map
  rw [List.nodup_map_iff_inj_on hnodup]
  constructor
  · intro hinjective filter hfilter other hother hcontinues
    have heq := hinjective filter hfilter other hother hcontinues.id_eq
    exact filter.not_continues_self (heq ▸ hcontinues)
  · intro hnone filter hfilter other hother hid
    rcases (id_eq_iff_of_mem_select h hfilter hother).1 hid with heq | hcontinues | hcontinues
    · exact heq
    · exact absurd hcontinues (hnone filter hfilter other hother)
    · exact absurd hcontinues (hnone other hother filter hfilter)

/-- What the ids of the selected cross-filters tell apart. In the table, cross-filters of one id
have one slot and one control. -/
structure SelectedIds {γ : Type} (sources : CrossFilterSources) (table : SlotTable γ) : Prop where
  nodup_iff : (sources.select.map (·.id)).Nodup ↔
    ∀ filter ∈ sources.select, ∀ other ∈ sources.select, ¬ filter.Continues other
  nodup_of_names : (∀ filter ∈ sources.select, ∀ c,
    filter.name.toList.getLast? = some c → c.isDigit = false) →
      (sources.select.map (·.id)).Nodup
  slots : ∀ filter ∈ sources.select, ∃ key slot,
    table.keyOf filter.id = some key ∧ table.get? key = some slot ∧
      ∀ other ∈ sources.select, table.keyOf other.id = some key ↔
        other = filter ∨ other.Continues filter ∨ filter.Continues other

end CrossFilterSources

open CrossFilterSources

/-- Of cross-filters of different charts two have one id, and share a slot in every pass, exactly if
the name of one is that of the other with the first digits of its number. -/
theorem selectedIds_renderWith {γ : Type} [Control γ] (sources : CrossFilterSources)
    (h : sources.charts.Nodup) (settings : Settings) (commands : List (PanelCommand γ))
    (resolve : ScopeResolver) (input : PanelInput) :
    sources.SelectedIds (((Panel.start settings).run commands).renderWith resolve
      { input with crossFilters := sources.select }).panel.slots where
  nodup_iff := nodup_ids_select_iff h
  nodup_of_names := by
    intro hnames
    rw [nodup_ids_select_iff h]
    exact fun filter hfilter _ _ => CrossFilter.not_continues_of_name (hnames filter hfilter)
  slots := by
    intro filter hfilter
    have hindexed : ((Panel.start (γ := γ) settings).run commands).slots.Indexed :=
      Panel.indexed_run SlotTable.indexed_empty commands
    generalize (Panel.start (γ := γ) settings).run commands = panel at hindexed ⊢
    let next : PanelInput := { input with crossFilters := sources.select }
    have htable : (panel.renderWith resolve next).panel.slots.Indexed :=
      Panel.indexed_step hindexed (.render resolve next)
    have hcontains : next.Contains resolve filter.id := .inr (List.mem_map_of_mem hfilter)
    obtain ⟨key, hkey⟩ := Option.isSome_iff_exists.1
      ((Panel.isSome_keyOf_step_iff hindexed (.render resolve next)).2 hcontains)
    obtain ⟨slot, hslot, -⟩ := htable.resolves hkey
    refine ⟨key, slot, hkey, hslot, fun other hother => ?_⟩
    rw [← id_eq_iff_of_mem_select h hother hfilter]
    constructor
    · exact fun hother => htable.keyOf_injective hother hkey
    · intro hid
      rw [hid]
      exact hkey

def CrossFilterSources.ofCharts (charts : List (ChartId × String)) : CrossFilterSources where
  masks := .ofList (charts.map fun (chart, name) =>
    (chart, { selection := { value := some (.string name) },
              restrictions := [{ column := "region", operator := "IN" }] }))
  charts := charts.map (·.1)
  places := charts.map fun (chart, name) => { id := name, chart, name }

/-- Chart 17 under the name Sales and chart 7 under the name Sales1 emit one id, and so do charts 21
and 1; the fifth chart has an id of its own. -/
theorem selectedIds_of_sales :
    let sources := CrossFilterSources.ofCharts
      [(17, "Sales"), (7, "Sales1"), (21, "Map"), (1, "Map2"), (117, "Sales")]
    let commands : List (PanelCommand ControlRecord) := [.report (.overflowed [⟨"Sales17"⟩])]
    sources.charts.Nodup ∧
      sources.SelectedIds (((Panel.start {}).run commands).renderWith Tabs.split
        { PanelInput.ofIds .horizontal [⟨"Map"⟩] with
          crossFilters := sources.select }).panel.slots := by
  intro sources commands
  have hcharts : sources.charts.Nodup := by decide
  clear_value sources commands
  exact ⟨hcharts, selectedIds_renderWith sources hcharts {} commands Tabs.split
    (.ofIds .horizontal [⟨"Map"⟩])⟩

theorem not_nodup_ids_select :
    ¬ ∀ sources : CrossFilterSources, sources.charts.Nodup →
      (sources.select.map (·.id)).Nodup := by
  intro h
  have hnodup := h (.ofCharts [(17, "Sales"), (7, "Sales1")]) (by decide)
  revert hnodup
  decide +kernel

end DashboardFilters
