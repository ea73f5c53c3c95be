import DashboardFilters.Proofs.OverflowView

/-!
The divider of a row. The entries marked for it are those with the id of the last cross-filter,
given that native filters follow; that is one place exactly if the row has this id once.
-/

namespace DashboardFilters

variable {γ : Type}

/-- An entry is marked exactly if it is a cross-filter before a native filter. -/
def MarksBoundary (row : List RowEntry) : Prop :=
  ∀ position entry, row[position]? = some entry →
    (entry.lastCrossFilter = true ↔ entry.slot.kind = .cross ∧
      ∃ next, row[position + 1]? = some next ∧ next.slot.kind = .native)

theorem marksBoundary_cons_iff {entry : RowEntry} {rest : List RowEntry} :
    MarksBoundary (entry :: rest) ↔
      (entry.lastCrossFilter = true ↔ entry.slot.kind = .cross ∧
        ∃ next, rest.head? = some next ∧ next.slot.kind = .native) ∧ MarksBoundary rest := by
  constructor
  · intro hall
    refine ⟨?_, fun position other hother => hall (position + 1) other hother⟩
    rw [List.head?_eq_getElem?]
    exact hall 0 entry rfl
  · intro ⟨hfirst, hrest⟩ position other hother
    cases position with
    | zero =>
        cases hother
        rw [List.head?_eq_getElem?] at hfirst
        exact hfirst
    | succ position => exact hrest position other hother

/-- Cross-filters and then native filters, marked by the id of the last cross-filter. -/
structure MarkedById (cross natives : List RowEntry) : Prop where
  crossKind : ∀ entry ∈ cross, entry.slot.kind = .cross
  nativeKind : ∀ entry ∈ natives, entry.slot.kind = .native
  apart : ∀ entry ∈ natives, entry.slot.id ∉ cross.map (·.slot.id)
  marked : ∀ entry ∈ cross ++ natives, (entry.lastCrossFilter = true ↔
    natives ≠ [] ∧ (cross.map (·.slot.id)).getLast? = some entry.slot.id)

theorem marksBoundary_of_unmarked {row : List RowEntry}
    (hkind : ∀ entry ∈ row, ∀ other ∈ row, entry.slot.kind = other.slot.kind)
    (hmarked : ∀ entry ∈ row, entry.lastCrossFilter = false) : MarksBoundary row := by
  intro position entry hentry
  have hmem := List.mem_of_getElem? hentry
  rw [hmarked entry hmem]
  refine iff_of_false Bool.false_ne_true ?_
  intro ⟨hcross, next, hnext, hnative⟩
  have hsame := hkind entry hmem next (List.mem_of_getElem? hnext)
  rw [hcross, hnative] at hsame
  cases hsame

theorem marksBoundary_append_iff {first natives : List RowEntry} {last : RowEntry}
    (hcross : ∀ entry ∈ first ++ [last], entry.slot.kind = .cross)
    (hnative : ∀ entry ∈ natives, entry.slot.kind = .native)
    (hunmarked : ∀ entry ∈ natives, entry.lastCrossFilter = false)
    (hnonempty : natives ≠ []) (hlast : last.lastCrossFilter = true) :
    MarksBoundary (first ++ last :: natives) ↔ ∀ entry ∈ first, entry.lastCrossFilter = false := by
  induction first with
  | nil =>
      obtain ⟨next, rest, rfl⟩ := List.exists_cons_of_ne_nil hnonempty
      refine iff_of_true ?_ fun _ hentry => absurd hentry List.not_mem_nil
      rw [List.nil_append, marksBoundary_cons_iff]
      constructor
      · refine iff_of_true hlast ⟨hcross last List.mem_cons_self, next, rfl, ?_⟩
        exact hnative next List.mem_cons_self
      · apply marksBoundary_of_unmarked _ hunmarked
        intro entry hentry other hother
        rw [hnative entry hentry, hnative other hother]
  | cons entry first ih =>
      -- What stands next to the first entry is a cross-filter as well.
      have hnext : ∀ next, (first ++ last :: natives).head? = some next →
          next.slot.kind = .cross := by
        intro next hnext
        apply hcross next
        have hhead : next ∈ first ++ [last] := by
          cases first with
          | nil =>
              cases hnext
              exact List.mem_cons_self
          | cons second others =>
              cases hnext
              exact List.mem_cons_self
        exact List.mem_cons_of_mem entry hhead
      have hboundary : ¬ (entry.slot.kind = .cross ∧
          ∃ next, (first ++ last :: natives).head? = some next ∧ next.slot.kind = .native) := by
        rintro ⟨-, next, hhead, hkind⟩
        rw [hnext next hhead] at hkind
        cases hkind
      rw [List.cons_append, marksBoundary_cons_iff,
        ih fun other hother => hcross other (List.mem_cons_of_mem entry hother),
        List.forall_mem_cons, iff_false_right hboundary, Bool.not_eq_true]

namespace MarkedById

variable {cross natives : List RowEntry}

theorem unmarked_native (h : MarkedById cross natives) {entry : RowEntry}
    (hentry : entry ∈ natives) : entry.lastCrossFilter = false := by
  rw [← Bool.not_eq_true, h.marked entry (List.mem_append_right cross hentry)]
  rintro ⟨-, hlast⟩
  exact h.apart entry hentry (List.mem_of_getLast? hlast)

theorem kind_of_marked (h : MarkedById cross natives) {entry : RowEntry}
    (hentry : entry ∈ cross ++ natives) (hmarked : entry.lastCrossFilter = true) :
    entry.slot.kind = .cross := by
  rcases List.mem_append.1 hentry with hmem | hmem
  · exact h.crossKind entry hmem
  · rw [h.unmarked_native hmem] at hmarked
    cases hmarked

theorem marksBoundary_of_no_divider (h : MarkedById cross natives)
    (hnone : natives = [] ∨ cross = []) :
    MarksBoundary (cross ++ natives) ∧ (cross ++ natives).countP (·.lastCrossFilter) = 0 := by
  have hunmarked : ∀ entry ∈ cross ++ natives, entry.lastCrossFilter = false := by
    intro entry hentry
    rw [← Bool.not_eq_true, h.marked entry hentry]
    intro ⟨hnonempty, hlast⟩
    rcases hnone with hnatives | hcross
    · exact hnonempty hnatives
    · rw [hcross] at hlast
      cases hlast
  refine ⟨marksBoundary_of_unmarked ?_ hunmarked, ?_⟩
  · intro entry hentry other hother
    rcases hnone with rfl | rfl
    · rw [List.append_nil] at hentry hother
      rw [h.crossKind entry hentry, h.crossKind other hother]
    · rw [h.nativeKind entry hentry, h.nativeKind other hother]
  · rw [List.countP_eq_zero]
    exact fun entry hentry => ne_true_of_eq_false (hunmarked entry hentry)

theorem marked_of_boundary (h : MarkedById cross natives) {position : Nat} {entry next : RowEntry}
    (hentry : (cross ++ natives)[position]? = some entry)
    (hnext : (cross ++ natives)[position + 1]? = some next) (hcross : entry.slot.kind = .cross)
    (hnative : next.slot.kind = .native) : entry.lastCrossFilter = true := by
  have hbefore : position < cross.length := by
    apply Nat.lt_of_not_le
    intro hle
    rw [List.getElem?_append_right hle] at hentry
    rw [h.nativeKind entry (List.mem_of_getElem? hentry)] at hcross
    cases hcross
  have hafter : cross.length ≤ position + 1 := by
    apply Nat.le_of_not_lt
    intro hlt
    rw [List.getElem?_append_left hlt] at hnext
    rw [h.crossKind next (List.mem_of_getElem? hnext)] at hnative
    cases hnative
  rw [List.getElem?_append_right hafter] at hnext
  have hlast : position = cross.length - 1 := by omega
  rw [h.marked entry (List.mem_of_getElem? hentry)]
  refine ⟨List.ne_nil_of_mem (List.mem_of_getElem? hnext), ?_⟩
  rw [List.getElem?_append_left hbefore, hlast] at hentry
  rw [List.getLast?_map, List.getLast?_eq_getElem?, hentry]
  rfl

variable {first : List RowEntry} {last : RowEntry}

theorem marked_iff (h : MarkedById (first ++ [last]) natives) (hnonempty : natives ≠ [])
    {entry : RowEntry} (hentry : entry ∈ first ++ [last]) :
    entry.lastCrossFilter = true ↔ entry.slot.id = last.slot.id := by
  have hlast : ((first ++ [last]).map (·.slot.id)).getLast? = some last.slot.id := by simp
  rw [h.marked entry (List.mem_append_left natives hentry), hlast, Option.some_inj, eq_comm]
  exact and_iff_right hnonempty

theorem countP_marked (h : MarkedById (first ++ [last]) natives) (hnonempty : natives ≠ []) :
    (first ++ last :: natives).countP (·.lastCrossFilter) =
      (first.map (·.slot.id)).count last.slot.id + 1 := by
  have hnatives : natives.countP (·.lastCrossFilter) = 0 := by
    rw [List.countP_eq_zero]
    exact fun entry hentry => ne_true_of_eq_false (h.unmarked_native hentry)
  have hfirst : first.countP (·.lastCrossFilter) =
      (first.map (·.slot.id)).count last.slot.id := by
    rw [List.count, List.countP_map]
    apply List.countP_congr
    intro entry hentry
    rw [h.marked_iff hnonempty (List.mem_append_left _ hentry)]
    exact beq_iff_eq.symm
  have hlast : last.lastCrossFilter = true :=
    (h.marked_iff hnonempty (List.mem_append_right _ (List.mem_singleton_self last))).2 rfl
  rw [List.countP_append, List.countP_cons_of_pos hlast, hnatives, hfirst]

theorem marksBoundary_iff (h : MarkedById (first ++ [last]) natives) (hnonempty : natives ≠ []) :
    MarksBoundary (first ++ last :: natives) ↔
      (first.map (·.slot.id)).count last.slot.id = 0 := by
  have hlast : last.lastCrossFilter = true :=
    (h.marked_iff hnonempty (List.mem_append_right _ (List.mem_singleton_self last))).2 rfl
  rw [marksBoundary_append_iff h.crossKind h.nativeKind (fun _ => h.unmarked_native) hnonempty
    hlast, List.count_eq_zero, List.mem_map, not_exists]
  apply forall_congr'
  intro entry
  rw [not_and]
  apply forall_congr'
  intro hentry
  rw [← h.marked_iff hnonempty (List.mem_append_left _ hentry), Bool.not_eq_true]

end MarkedById

/-- Where a row of cross-filters and native filters is marked, in terms of their ids. -/
structure HorizontalView.Divided (view : HorizontalView) (crossIds nativeIds : List FilterId) :
    Prop where
  ids : view.row.map (·.slot.id) = crossIds ++ nativeIds
  marked : ∀ entry ∈ view.row, (entry.lastCrossFilter = true ↔
    nativeIds ≠ [] ∧ crossIds.getLast? = some entry.slot.id)
  kind : ∀ entry ∈ view.row, entry.lastCrossFilter = true → entry.slot.kind = .cross
  divider : ∀ position entry next, view.row[position]? = some entry →
    view.row[position + 1]? = some next → entry.slot.kind = .cross → next.slot.kind = .native →
      entry.lastCrossFilter = true
  /-- No other place is, unless the last cross-filter is there more than once. -/
  boundary : MarksBoundary view.row ↔
    nativeIds = [] ∨ ∀ id, crossIds.getLast? = some id → crossIds.count id = 1
  single : view.row.countP (·.lastCrossFilter) ≤ 1 ↔ MarksBoundary view.row

theorem MarkedById.divided {cross natives : List RowEntry} (h : MarkedById cross natives)
    {view : HorizontalView} (hrow : view.row = cross ++ natives) :
    view.Divided (cross.map (·.slot.id)) (natives.map (·.slot.id)) where
  ids := by rw [hrow, List.map_append]
  marked := by
    rw [hrow]
    intro entry hentry
    rw [h.marked entry hentry, ne_eq, ne_eq, List.map_eq_nil_iff]
  kind := by
    rw [hrow]
    exact fun _ => h.kind_of_marked
  divider := by
    rw [hrow]
    exact fun _ _ _ => h.marked_of_boundary
  boundary := by
    rw [hrow, List.map_eq_nil_iff]
    rcases List.eq_nil_or_concat' cross with rfl | ⟨first, last, rfl⟩
    · exact iff_of_true (h.marksBoundary_of_no_divider (.inr rfl)).1 (.inr fun _ hid => nomatch hid)
    · by_cases hnonempty : natives = []
      · exact iff_of_true (h.marksBoundary_of_no_divider (.inl hnonempty)).1 (.inl hnonempty)
      · rw [List.append_assoc, List.singleton_append, h.marksBoundary_iff hnonempty,
          or_iff_right hnonempty]
        simp
  single := by
    rw [hrow]
    rcases List.eq_nil_or_concat' cross with rfl | ⟨first, last, rfl⟩
    · obtain ⟨hboundary, hcount⟩ := h.marksBoundary_of_no_divider (.inr rfl)
      exact iff_of_true (hcount ▸ Nat.zero_le 1) hboundary
    · by_cases hnonempty : natives = []
      · obtain ⟨hboundary, hcount⟩ := h.marksBoundary_of_no_divider (.inl hnonempty)
        exact iff_of_true (hcount ▸ Nat.zero_le 1) hboundary
      · rw [List.append_assoc, List.singleton_append, h.marksBoundary_iff hnonempty,
          h.countP_marked hnonempty]
        omega

namespace Lineup

variable {lineup : Lineup} {table : SlotTable γ} {overflow : Overflow}

theorem divided_horizontalView {snapshot : Snapshot} {labels : TriggerLabels}
    (hcross : ∀ item ∈ lineup.cross, item.kind = .cross)
    (hnative : ∀ item ∈ lineup.natives, item.kind = .native)
    (hapart : ∀ item ∈ lineup.natives, item.id ∉ lineup.cross.map (·.id))
    (hholds : table.Holds lineup.row) :
    (lineup.horizontalView snapshot labels overflow table).Divided (lineup.cross.map (·.id))
      (lineup.natives.map (·.id)) := by
  rw [← cross_append_natives] at hholds
  have hcrossIds := lineup.map_id_entries overflow (hholds.subset (List.subset_append_left _ _))
  have hnativeIds := lineup.map_id_entries overflow (hholds.subset (List.subset_append_right _ _))
  rw [← hcrossIds, ← hnativeIds]
  apply MarkedById.divided
  case hrow =>
    rw [← List.filterMap_append, cross_append_natives]
    rfl
  constructor
  case crossKind =>
    intro entry hentry
    obtain ⟨item, hitem, -, hkind, -, -⟩ := of_mem_entries hentry
    exact hkind.trans (hcross item hitem)
  case nativeKind =>
    intro entry hentry
    obtain ⟨item, hitem, -, hkind, -, -⟩ := of_mem_entries hentry
    exact hkind.trans (hnative item hitem)
  case apart =>
    intro entry hentry
    obtain ⟨item, hitem, hid, -, -, -⟩ := of_mem_entries hentry
    rw [hcrossIds, hid]
    exact hapart item hitem
  case marked =>
    intro entry hentry
    rw [← List.filterMap_append] at hentry
    obtain ⟨item, -, hid, -, -, hmarked⟩ := of_mem_entries hentry
    rw [hmarked, hcrossIds, hid, ne_eq, ← List.map_eq_nil_iff, hnativeIds, List.map_eq_nil_iff,
      List.getLast?_map]
    simp

end Lineup

namespace PanelInput

def rowCrossIds (input : PanelInput) (resolve : ScopeResolver) : List FilterId :=
  input.crossIds.filter fun id => !FilterItem.listed (input.split resolve).items id

def rowNativeIds (input : PanelInput) (resolve : ScopeResolver) : List FilterId :=
  (input.split resolve).inScope.map (·.id)

variable {input : PanelInput} {resolve : ScopeResolver}

theorem map_id_cross_lineup (h : (input.split resolve).IsNative) :
    (input.lineup resolve).cross.map (·.id) = input.rowCrossIds resolve := by
  rw [lineup, Lineup.cross_ofSplit h, Lineup.map_id_undisplaced]
  rfl

theorem map_id_natives_lineup (h : (input.split resolve).IsNative) :
    (input.lineup resolve).natives.map (·.id) = input.rowNativeIds resolve := by
  rw [lineup, Lineup.natives_ofSplit h]
  rfl

end PanelInput

namespace Panel

variable [Control γ] {panel : Panel γ} {input : PanelInput} {resolve : ScopeResolver}

theorem divided_renderWith (h : panel.slots.Indexed) (hmode : input.mode = .horizontal)
    (hnative : (input.split resolve).IsNative) :
    ∃ view, (panel.renderWith resolve input).view = .horizontal view ∧
      view.Divided (input.rowCrossIds resolve) (input.rowNativeIds resolve) := by
  refine ⟨_, view_renderWith_of_horizontal resolve hmode panel, ?_⟩
  rw [← PanelInput.map_id_cross_lineup hnative, ← PanelInput.map_id_natives_lineup hnative]
  apply Lineup.divided_horizontalView
  case hcross => exact fun item hitem => Lineup.kind_of_mem_cross hnative hitem
  case hnative => exact fun item hitem => Lineup.kind_of_mem_natives hnative hitem
  case hapart =>
    intro item hitem hmem
    rw [PanelInput.map_id_cross_lineup hnative] at hmem
    have hlisted : FilterItem.listed (input.split resolve).items item.id = true := by
      rw [PanelInput.lineup, Lineup.natives_ofSplit hnative] at hitem
      exact FilterItem.listed_iff.2 (List.mem_map_of_mem (List.mem_append_left _ hitem))
    have hunlisted := (List.mem_filter.1 hmem).2
    rw [hlisted] at hunlisted
    cases hunlisted
  case hholds => exact (holds_renderWith h resolve input).subset (List.subset_append_left _ _)

end Panel

/-- Whatever happened before, a pass marks the entries of the last cross-filter in the row if native
filters follow. That is the place of the divider and no other, unless the row has the id of the last
cross-filter more than once. -/
theorem divided_row [Control γ] (settings : Settings) (commands : List (PanelCommand γ))
    (resolve : ScopeResolver) (input : PanelInput) (hmode : input.mode = .horizontal)
    (hnative : (input.split resolve).IsNative) :
    ∃ view, (((Panel.start settings).run commands).renderWith resolve input).view =
        .horizontal view ∧
      view.Divided (input.rowCrossIds resolve) (input.rowNativeIds resolve) := by
  apply Panel.divided_renderWith _ hmode hnative
  exact Panel.indexed_run SlotTable.indexed_empty commands

/-- Two cross-filters have one id, and a third has that of a native filter. -/
theorem divided_row_of_colliding :
    let cross (name : String) (chart : ChartId) : CrossFilter :=
      { chart, name, column := none, value := none, path := [] }
    let input : PanelInput :=
      { mode := .horizontal
        snapshot := { filters := [{ id := ⟨"a"⟩, name := "A" }, { id := ⟨"Y7"⟩, name := "Y" }] }
        crossFilters := [cross "Sales" 17, cross "Z" 7, cross "Sales1" 7, cross "Y" 7] }
    let commands : List (PanelCommand ControlRecord) := [.report (.overflowed [⟨"Z7"⟩])]
    input.mode = .horizontal ∧ (input.split Tabs.split).IsNative ∧
      input.rowCrossIds Tabs.split = [⟨"Sales17"⟩, ⟨"Z7"⟩, ⟨"Sales17"⟩] ∧
      ∃ view, (((Panel.start {}).run commands).renderWith Tabs.split input).view =
          .horizontal view ∧
        view.Divided (input.rowCrossIds Tabs.split) (input.rowNativeIds Tabs.split) := by
  intro cross input commands
  have hmode : input.mode = .horizontal := rfl
  have hnative : (input.split Tabs.split).IsNative := input.isNative_split
  have hcross : input.rowCrossIds Tabs.split = [⟨"Sales17"⟩, ⟨"Z7"⟩, ⟨"Sales17"⟩] := by decide
  clear_value input commands
  exact ⟨hmode, hnative, hcross, divided_row {} commands Tabs.split input hmode hnative⟩

theorem not_marksBoundary :
    ¬ ∀ (settings : Settings) (commands : List (PanelCommand ControlRecord)) (input : PanelInput)
      (view : HorizontalView),
      (((Panel.start settings).run commands).render input).view = .horizontal view →
        MarksBoundary view.row := by
  intro hall
  have hmarks := hall {} []
    { mode := .horizontal
      snapshot := { filters := [{ id := ⟨"a"⟩, name := "A" }] }
      crossFilters := [{ chart := 17, name := "Sales", column := none, value := none, path := [] },
        { chart := 7, name := "Sales1", column := none, value := none, path := [] }] }
    _ rfl 0 _ rfl
  revert hmarks
  decide

end DashboardFilters
