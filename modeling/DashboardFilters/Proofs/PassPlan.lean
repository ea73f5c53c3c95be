import DashboardFilters.Proofs.OverflowView
import DashboardFilters.Proofs.PanelOverflow
import DashboardFilters.Proofs.SlotIdentity

/-!
The plan of a pass: its view without the keys of the slots. Tables, controls and highlight logs of
two panels may differ in everything; as every filter of a pass has a slot in both, all that the plan
takes from the past is the overflow.
-/

namespace DashboardFilters

variable {γ δ : Type}

/-- The reference with a key that no slot ever has. -/
def SlotRef.unkeyed (ref : SlotRef) : SlotRef :=
  { ref with key := { position := 0, generation := 0 } }

def CollapsibleSection.unkeyed (group : CollapsibleSection) : CollapsibleSection :=
  { group with slots := group.slots.map SlotRef.unkeyed }

def VerticalView.unkeyed (view : VerticalView) : VerticalView :=
  { cross := view.cross.map SlotRef.unkeyed
    inScope := view.inScope.map SlotRef.unkeyed
    outOfScope := view.outOfScope.map CollapsibleSection.unkeyed }

def RowEntry.unkeyed (entry : RowEntry) : RowEntry :=
  { entry with slot := entry.slot.unkeyed }

def Dropdown.unkeyed (dropdown : Dropdown) : Dropdown :=
  { cross := dropdown.cross.map SlotRef.unkeyed
    inScope := dropdown.inScope.map SlotRef.unkeyed
    outOfScope := dropdown.outOfScope.map CollapsibleSection.unkeyed }

def HorizontalView.unkeyed (view : HorizontalView) : HorizontalView :=
  { view with
    row := view.row.map RowEntry.unkeyed
    dropdown := view.dropdown.map Dropdown.unkeyed }

def PanelView.unkeyed : PanelView → PanelView
  | vertical view => .vertical view.unkeyed
  | horizontal view => .horizontal view.unkeyed

def FilterItem.ref (item : FilterItem) : SlotRef :=
  { key := { position := 0, generation := 0 }, id := item.id, kind := item.kind }

namespace SlotTable

variable {table : SlotTable γ} {items : List FilterItem}

theorem unkeyed_slotRef? {item : FilterItem} (h : (table.keyOf item.id).isSome) :
    (table.slotRef? item).map SlotRef.unkeyed = some item.ref := by
  obtain ⟨key, hkey⟩ := Option.isSome_iff_exists.1 h
  rw [slotRef?, hkey]
  rfl

theorem unkeyed_slotRefs (h : table.Holds items) :
    (table.slotRefs items).map SlotRef.unkeyed = items.map FilterItem.ref := by
  rw [slotRefs, List.map_filterMap, ← List.filterMap_eq_map]
  exact List.filterMap_congr fun item hitem => unkeyed_slotRef? (h item hitem)

end SlotTable

namespace Lineup

variable {lineup : Lineup} {snapshot : Snapshot} {table : SlotTable γ} {other : SlotTable δ}

def sectionPlan (lineup : Lineup) (snapshot : Snapshot) : Option CollapsibleSection :=
  if snapshot.tabs.hasTabs && !snapshot.filters.isEmpty then
    some { slots := lineup.outOfScope.map FilterItem.ref, forceRender := lineup.forceRender }
  else
    none

theorem unkeyed_outOfScopeSection (h : table.Holds lineup.present) :
    (lineup.outOfScopeSection snapshot table).map CollapsibleSection.unkeyed =
      lineup.sectionPlan snapshot := by
  have hout : table.Holds lineup.outOfScope := h.subset (List.subset_append_right _ _)
  unfold outOfScopeSection sectionPlan
  split
  · rw [Option.map_some, CollapsibleSection.unkeyed, SlotTable.unkeyed_slotRefs hout]
  · rfl

theorem unkeyed_verticalView (h : table.Holds lineup.present)
    (hother : other.Holds lineup.present) :
    (lineup.verticalView snapshot table).unkeyed =
      (lineup.verticalView snapshot other).unkeyed := by
  have hcross : lineup.cross ⊆ lineup.present :=
    fun _ hitem => mem_present_iff_group.2 (.inl hitem)
  have hnatives : lineup.natives ⊆ lineup.present :=
    fun _ hitem => mem_present_iff_group.2 (.inr (.inl hitem))
  simp only [VerticalView.unkeyed, verticalView, unkeyed_outOfScopeSection h,
    unkeyed_outOfScopeSection hother, SlotTable.unkeyed_slotRefs (h.subset hcross),
    SlotTable.unkeyed_slotRefs (hother.subset hcross),
    SlotTable.unkeyed_slotRefs (h.subset hnatives),
    SlotTable.unkeyed_slotRefs (hother.subset hnatives)]

theorem unkeyed_row (h : table.Holds lineup.present) (overflow : Overflow) :
    (lineup.row.filterMap (lineup.rowEntry? overflow table)).map RowEntry.unkeyed =
      lineup.row.map fun item =>
        { slot := item.ref
          overflowed := overflow.ids.contains item.id
          lastCrossFilter :=
            !lineup.natives.isEmpty && (lineup.cross.getLast?.map (·.id)) == some item.id } := by
  rw [List.map_filterMap, ← List.filterMap_eq_map]
  apply List.filterMap_congr
  intro item hitem
  obtain ⟨key, hkey⟩ := Option.isSome_iff_exists.1 (h item (List.mem_append_left _ hitem))
  unfold rowEntry? SlotTable.slotRef?
  rw [hkey]
  rfl

theorem unkeyed_dropdown? {split : OverflowSplit} (h : table.Holds lineup.present)
    (hsplit : split.cross ++ split.inScope ⊆ lineup.row) :
    (lineup.dropdown? snapshot split table).map Dropdown.unkeyed =
      if split.isEmpty && ((lineup.sectionPlan snapshot).map (·.slots.isEmpty)).getD true then
        none
      else
        some {
          cross := split.cross.map FilterItem.ref
          inScope := split.inScope.map FilterItem.ref
          outOfScope := lineup.sectionPlan snapshot } := by
  have hitems : table.Holds (split.cross ++ split.inScope) :=
    h.subset (List.Subset.trans hsplit (List.subset_append_left _ _))
  have hempty : (lineup.outOfScopeSection snapshot table).map (·.slots.isEmpty) =
      (lineup.sectionPlan snapshot).map (·.slots.isEmpty) := by
    rw [← unkeyed_outOfScopeSection h, Option.map_map]
    congr 1
    funext group
    exact List.isEmpty_map.symm
  simp only [dropdown?, hempty, apply_ite (Option.map Dropdown.unkeyed), Option.map_none,
    Option.map_some, Dropdown.unkeyed, unkeyed_outOfScopeSection h,
    SlotTable.unkeyed_slotRefs (hitems.subset (List.subset_append_left _ _)),
    SlotTable.unkeyed_slotRefs (hitems.subset (List.subset_append_right _ _))]

theorem unkeyed_horizontalView {labels : TriggerLabels} {overflow overflow' : Overflow}
    (h : table.Holds lineup.present) (hother : other.Holds lineup.present)
    (hids : overflow.ids = overflow'.ids) :
    (lineup.horizontalView snapshot labels overflow table).unkeyed =
      (lineup.horizontalView snapshot labels overflow' other).unkeyed := by
  have hsplit : overflow.split lineup.natives lineup.cross =
      overflow'.split lineup.natives lineup.cross := by
    rw [Overflow.split_eq, Overflow.split_eq, hids]
  have hrow : (overflow'.split lineup.natives lineup.cross).cross ++
      (overflow'.split lineup.natives lineup.cross).inScope ⊆ lineup.row :=
    fun _ hitem => (mem_split hitem).1
  simp only [HorizontalView.unkeyed, horizontalView, unkeyed_row h, unkeyed_row hother, hsplit,
    hids, unkeyed_dropdown? h hrow, unkeyed_dropdown? hother hrow]

end Lineup

namespace Overflow

/-- A pass in the given mode finds the same in both: for the vertical list nothing counts, for the
row the pending report does, or without one the committed ids. -/
inductive SeenAlike (mode : LayoutMode) (overflow other : Overflow) : Prop where
  | vertical (hmode : mode = .vertical)
  | pending (measurement : Measurement) (hpending : overflow.pending = some measurement)
      (hother : other.pending = some measurement)
  | committed (hpending : overflow.pending = none) (hother : other.pending = none)
      (hids : overflow.ids = other.ids)

theorem SeenAlike.candidate_eq {overflow other : Overflow}
    (h : SeenAlike .horizontal overflow other) : overflow.candidate = other.candidate := by
  cases h with
  | vertical hmode => cases hmode
  | pending measurement hpending hother =>
      simp only [candidate, hpending, hother]
      cases measurement <;> rfl
  | committed hpending hother hids => simp only [candidate, hpending, hother, hids]

end Overflow

namespace Panel

variable [Control γ] [Control δ] {panel : Panel γ} {other : Panel δ} {resolve : ScopeResolver}
  {input : PanelInput}

theorem unkeyed_view_renderWith (h : panel.slots.Indexed) (hother : other.slots.Indexed)
    (hsettings : panel.settings = other.settings)
    (hseen : Overflow.SeenAlike input.mode panel.overflow other.overflow) :
    (panel.renderWith resolve input).view.unkeyed =
      (other.renderWith resolve input).view.unkeyed := by
  have hholds := holds_renderWith h resolve input
  have hholds' := holds_renderWith hother resolve input
  cases hmode : input.mode with
  | vertical =>
      rw [view_renderWith_of_vertical resolve hmode, view_renderWith_of_vertical resolve hmode]
      exact congrArg PanelView.vertical (Lineup.unkeyed_verticalView hholds hholds')
  | horizontal =>
      rw [hmode] at hseen
      have hids : (panel.overflowIn resolve input).ids = (other.overflowIn resolve input).ids := by
        rw [ids_overflowIn_horizontal _ _ _ hmode, ids_overflowIn_horizontal _ _ _ hmode,
          hseen.candidate_eq]
      rw [view_renderWith_of_horizontal resolve hmode, view_renderWith_of_horizontal resolve hmode,
        hsettings]
      exact congrArg PanelView.horizontal (Lineup.unkeyed_horizontalView hholds hholds' hids)

end Panel

open Panel in
/-- Two panels with the same settings, whatever happened to each, plan a pass alike if it reads the
same of their overflows; in particular a panel that a measurement was just reported to plans it like
a new one. -/
theorem unkeyed_view_of_pasts [Control γ] [Control δ] (settings : Settings)
    (past : List (PanelCommand γ)) (past' : List (PanelCommand δ)) (resolve : ScopeResolver)
    (input : PanelInput) :
    let panel : Panel γ := (start settings).run past
    let other : Panel δ := (start settings).run past'
    let fresh : Panel δ := start settings
    (Overflow.SeenAlike input.mode panel.overflow other.overflow →
      (panel.renderWith resolve input).view.unkeyed =
        (other.renderWith resolve input).view.unkeyed) ∧
    ∀ measurement, ((panel.report measurement).renderWith resolve input).view.unkeyed =
      ((fresh.report measurement).renderWith resolve input).view.unkeyed := by
  intro panel other fresh
  have h : panel.slots.Indexed := indexed_run SlotTable.indexed_empty past
  have hother : other.slots.Indexed := indexed_run SlotTable.indexed_empty past'
  have hsettings : panel.settings = settings := settings_run _ past
  have hsettings' : other.settings = settings := settings_run _ past'
  constructor
  · exact unkeyed_view_renderWith h hother (hsettings.trans hsettings'.symm)
  · intro measurement
    have hreported : (panel.report measurement).slots.Indexed := h
    have hfresh : (fresh.report measurement).slots.Indexed := SlotTable.indexed_empty
    exact unkeyed_view_renderWith hreported hfresh hsettings (.pending measurement rfl rfl)

/-- The same filter is hidden after two histories that gave it slots at different positions. -/
theorem unkeyed_view_of_reports :
    let past : List (PanelCommand ControlRecord) :=
      [.render Tabs.split (.ofIds .vertical [⟨"a"⟩, ⟨"b"⟩, ⟨"c"⟩]),
        .report (.overflowed [⟨"c"⟩, ⟨"b"⟩]),
        .render Tabs.split (.ofIds .horizontal [⟨"a"⟩, ⟨"b"⟩])]
    let past' : List (PanelCommand ControlRecord) :=
      [.report (.overflowed [⟨"b"⟩]), .render Tabs.split (.ofIds .horizontal [⟨"b"⟩])]
    let input := PanelInput.ofIds .horizontal [⟨"b"⟩, ⟨"a"⟩]
    Overflow.SeenAlike input.mode ((Panel.start {}).run past).overflow
        ((Panel.start {}).run past').overflow ∧
      (((Panel.start {}).run past).renderWith Tabs.split input).view.unkeyed =
        (((Panel.start {}).run past').renderWith Tabs.split input).view.unkeyed := by
  intro past past' input
  have hseen : Overflow.SeenAlike input.mode ((Panel.start {}).run past).overflow
      ((Panel.start {}).run past').overflow := .committed (by decide) (by decide) (by decide)
  clear_value past past' input
  exact ⟨hseen, (unkeyed_view_of_pasts {} past past' Tabs.split input).1 hseen⟩

end DashboardFilters
