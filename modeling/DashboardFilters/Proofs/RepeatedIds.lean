import DashboardFilters.Proofs.OverflowView

/-!
Ids that the row has more than once. The slot of an id has the first of its items, while the
drop-down and its trigger go by the last one; the two are the same item exactly if the row has the
id once.
-/

namespace DashboardFilters

variable {γ : Type}

def SlotTable.itemOf? (table : SlotTable γ) (id : FilterId) : Option FilterItem :=
  (table.keyOf id).bind fun key => (table.get? key).map (·.item)

def Lineup.itemsOf (lineup : Lineup) (id : FilterId) : List FilterItem :=
  lineup.row.filter (·.id == id)

theorem first_eq_last_iff {α : Type} {xs : List α} {first last : α} (hnodup : xs.Nodup)
    (hfirst : xs.head? = some first) (hlast : xs.getLast? = some last) :
    first = last ↔ xs.length = 1 := by
  match xs with
  | [] => cases hfirst
  | [x] =>
      cases hfirst
      cases hlast
      exact iff_of_true rfl rfl
  | x :: y :: rest =>
      cases hfirst
      rw [List.getLast?_cons_cons] at hlast
      refine iff_of_false ?_ (by simp)
      intro heq
      subst heq
      exact (List.nodup_cons.1 hnodup).1 (List.mem_of_getLast? hlast)

theorem Lineup.nodup_numbered (crossFilters : List CrossFilter) : (numbered crossFilters).Nodup := by
  have horders : (numbered crossFilters).map (·.order) = crossFilters.zipIdx.map Prod.snd := by
    rw [numbered, List.map_map]
    rfl
  apply List.Nodup.of_map (·.order)
  rw [horders, List.zipIdx_map_snd]
  exact List.nodup_range'

theorem Tabs.nodup_inScope_split (filters : List NativeFilter) (tabs : Tabs) :
    (split filters tabs).inScope.Nodup := by
  have horders : (split filters tabs).inScope.map (·.order) =
      (filters.zipIdx.filter fun entry => tabs.includes entry.1).map Prod.snd := by
    rw [split, List.partition_eq_filter_filter, List.map_map]
    rfl
  apply List.Nodup.of_map (·.order)
  rw [horders]
  apply (List.filter_sublist.map Prod.snd).nodup
  rw [List.zipIdx_map_snd]
  exact List.nodup_range'

namespace PanelInput

theorem nodup_row (input : PanelInput) : (input.lineup Tabs.split).row.Nodup := by
  have hcross : (input.lineup Tabs.split).cross.Nodup := by
    rw [lineup, Lineup.cross_ofSplit input.isNative_split]
    exact List.filter_sublist.nodup (Lineup.nodup_numbered _)
  have hnatives : (input.lineup Tabs.split).natives.Nodup := by
    rw [lineup, Lineup.natives_ofSplit input.isNative_split]
    exact Tabs.nodup_inScope_split _ _
  rw [← Lineup.cross_append_natives]
  refine List.nodup_append.2 ⟨hcross, hnatives, ?_⟩
  intro item hitem other hother heq
  have hkind := isCross_of_mem_cross hitem
  rw [heq, not_isCross_of_mem_natives hother] at hkind
  cases hkind

/-- The items of an id are in one group, so that the order of the groups does not matter. -/
theorem filter_groups (input : PanelInput) (id : FilterId) :
    ((input.lineup Tabs.split).natives ++ (input.lineup Tabs.split).cross).filter (·.id == id) =
      (input.lineup Tabs.split).itemsOf id := by
  have hrow : (input.lineup Tabs.split).itemsOf id =
      ((input.lineup Tabs.split).cross ++ (input.lineup Tabs.split).natives).filter
        (·.id == id) := by
    rw [Lineup.cross_append_natives]
    rfl
  rw [hrow, List.filter_append, List.filter_append]
  cases hnative : input.nativeIds.contains id with
  | true =>
      have hnone : (input.lineup Tabs.split).cross.filter (·.id == id) = [] := by
        rw [List.filter_eq_nil_iff]
        intro item hitem hid
        have hmem := List.mem_map_of_mem (f := (·.id)) hitem
        rw [ids_cross, List.mem_filter, eq_of_beq hid, hnative] at hmem
        cases hmem.2
      rw [hnone, List.append_nil, List.nil_append]
  | false =>
      have hnone : (input.lineup Tabs.split).natives.filter (·.id == id) = [] := by
        rw [List.filter_eq_nil_iff]
        intro item hitem hid
        have hmem := List.mem_map_of_mem (f := (·.id)) hitem
        rw [ids_natives, eq_of_beq hid] at hmem
        have hlisted : id ∈ input.nativeIds :=
          (List.filter_sublist.map NativeFilter.id).subset hmem
        rw [List.contains_iff_mem.2 hlisted] at hnative
        cases hnative
      rw [hnone, List.append_nil, List.nil_append]

end PanelInput

structure OverflowSplit.Picked (split : OverflowSplit) (lineup : Lineup) (table : SlotTable γ)
    (ids : List FilterId) : Prop where
  ids : ((split.cross ++ split.inScope).map (·.id)).Perm ids
  last : ∀ item ∈ split.cross ++ split.inScope, (lineup.itemsOf item.id).getLast? = some item
  first : ∀ item ∈ split.cross ++ split.inScope,
    ∃ first, table.itemOf? item.id = some first ∧ (lineup.itemsOf item.id).head? = some first
  agrees : ∀ item ∈ split.cross ++ split.inScope,
    table.itemOf? item.id = some item ↔ (lineup.itemsOf item.id).length = 1

namespace Panel

variable [Control γ] {panel : Panel γ} {input : PanelInput}

omit [Control γ] in
theorem getLast?_itemsOf {item : FilterItem}
    (h : item ∈ (panel.splitIn input).cross ++ (panel.splitIn input).inScope) :
    ((input.lineup Tabs.split).itemsOf item.id).getLast? = some item := by
  obtain ⟨id, -, hfound⟩ := List.mem_filterMap.1 ((Overflow.perm_split _ _ _).subset h)
  have hid : item.id = id := by simpa using List.find?_some hfound
  rw [← List.getLast?_filter, input.filter_groups, ← hid] at hfound
  exact hfound

theorem itemOf?_renderWith (h : panel.slots.Indexed) {resolve : ScopeResolver} {id : FilterId}
    (hid : id ∈ (input.lineup resolve).row.map (·.id)) :
    (panel.renderWith resolve input).panel.slots.itemOf? id =
      ((input.lineup resolve).itemsOf id).head? := by
  have hpresent : id ∈ (input.lineup resolve).present.map (·.id) := by
    rw [Lineup.present, List.map_append]
    exact List.mem_append_left _ hid
  obtain ⟨key, slot, hkey, hslot, hfirst⟩ :=
    slot_renderWith_of_contains h (mem_present_lineup_iff.1 hpresent)
  obtain ⟨item, hitem, hsame⟩ := List.mem_map.1 hid
  have hfound : ((input.lineup resolve).row.find? (·.id == id)).isSome :=
    List.find?_isSome.2 ⟨item, hitem, beq_iff_eq.2 hsame⟩
  obtain ⟨first, hrow⟩ := Option.isSome_iff_exists.1 hfound
  have hfirst : ((input.lineup resolve).row ++ (input.lineup resolve).outOfScope).find?
      (·.id == id) = some slot.item := hfirst
  rw [List.find?_append, hrow, Option.some_or] at hfirst
  rw [SlotTable.itemOf?, hkey, Option.bind_some, hslot, Option.map_some, Lineup.itemsOf,
    List.head?_filter, hrow, hfirst]

theorem picked_splitIn (h : panel.slots.Indexed) (hmode : input.mode = .horizontal) :
    (panel.splitIn input).Picked (input.lineup Tabs.split) (panel.render input).panel.slots
      (panel.overflowIn Tabs.split input).ids := by
  have hrow : ∀ item ∈ (panel.splitIn input).cross ++ (panel.splitIn input).inScope,
      item.id ∈ (input.lineup Tabs.split).row.map (·.id) :=
    fun item hitem => List.mem_map_of_mem (Lineup.mem_split hitem).1
  have hfirst : ∀ item ∈ (panel.splitIn input).cross ++ (panel.splitIn input).inScope,
      ∃ first, (panel.render input).panel.slots.itemOf? item.id = some first ∧
        ((input.lineup Tabs.split).itemsOf item.id).head? = some first := by
    intro item hitem
    have hne : (input.lineup Tabs.split).itemsOf item.id ≠ [] :=
      List.ne_nil_of_mem (List.mem_of_getLast? (getLast?_itemsOf hitem))
    obtain ⟨first, hhead⟩ := Option.ne_none_iff_exists'.1 (mt List.head?_eq_none_iff.1 hne)
    exact ⟨first, (itemOf?_renderWith h (hrow item hitem)).trans hhead, hhead⟩
  constructor
  case ids =>
    have hperm := ((panel.overflowIn Tabs.split input).perm_split
      (input.lineup Tabs.split).natives (input.lineup Tabs.split).cross).map (·.id)
    rw [map_id_pickedItems (known_overflowIn hmode)] at hperm
    exact hperm
  case last => exact fun item hitem => getLast?_itemsOf hitem
  case first => exact hfirst
  case agrees =>
    intro item hitem
    obtain ⟨first, hslot, hhead⟩ := hfirst item hitem
    have hnodup : ((input.lineup Tabs.split).itemsOf item.id).Nodup :=
      List.filter_sublist.nodup input.nodup_row
    rw [hslot, Option.some.injEq]
    exact first_eq_last_iff hnodup hhead (getLast?_itemsOf hitem)

end Panel

/-- The drop-down and its trigger go by the last item of each hidden id in the row and the slots by
the first, which is the same item exactly if the row has the id once. -/
theorem picked_render [Control γ] (settings : Settings) (commands : List (PanelCommand γ))
    (input : PanelInput) (hmode : input.mode = .horizontal) :
    let rendered := ((Panel.start settings).run commands).render input
    let lineup := input.lineup Tabs.split
    let split := rendered.panel.overflow.split lineup.natives lineup.cross
    split.Picked lineup rendered.panel.slots rendered.panel.overflow.ids ∧
      ∃ view, rendered.view = .horizontal view ∧
        view.trigger = Lineup.trigger settings.labels split ∧
        ∀ dropdown, view.dropdown = some dropdown →
          dropdown.cross = rendered.panel.slots.slotRefs split.cross ∧
            dropdown.inScope = rendered.panel.slots.slotRefs split.inScope := by
  have h : ((Panel.start (γ := γ) settings).run commands).slots.Indexed :=
    Panel.indexed_run SlotTable.indexed_empty commands
  have hsettings : ((Panel.start (γ := γ) settings).run commands).settings = settings :=
    Panel.settings_run _ commands
  generalize (Panel.start (γ := γ) settings).run commands = panel at h hsettings
  intro rendered lineup split
  refine ⟨Panel.picked_splitIn h hmode, panel.horizontalIn input,
    Panel.view_of_horizontal hmode panel, ?_, fun _ => Panel.dropdown_eq_some⟩
  rw [← hsettings]
  rfl

theorem picked_of_repeated :
    let input : PanelInput :=
      { mode := .horizontal
        snapshot := {
          filters := [{ id := ⟨"a"⟩, name := "A", hasValue := true }, { id := ⟨"b"⟩, name := "B" },
            { id := ⟨"a"⟩, name := "A2" }, { id := ⟨"a"⟩, name := "A3", hasValue := true }] } }
    let commands : List (PanelCommand ControlRecord) := [.report (.overflowed [⟨"b"⟩, ⟨"a"⟩])]
    let rendered := ((Panel.start {}).run commands).render input
    let lineup := input.lineup Tabs.split
    let split := rendered.panel.overflow.split lineup.natives lineup.cross
    input.mode = .horizontal ∧
      split.Picked lineup rendered.panel.slots rendered.panel.overflow.ids ∧
        ∃ view, rendered.view = .horizontal view ∧
          view.trigger = Lineup.trigger {} split ∧
          ∀ dropdown, view.dropdown = some dropdown →
            dropdown.cross = rendered.panel.slots.slotRefs split.cross ∧
              dropdown.inScope = rendered.panel.slots.slotRefs split.inScope := by
  intro input commands rendered lineup split
  have hmode : input.mode = .horizontal := rfl
  clear_value input commands
  exact ⟨hmode, picked_render {} commands input hmode⟩

/-- A filter is configured twice, first with a value and then without. Its slot says that it holds
one, and the trigger does not count it. -/
theorem not_picked_from_slots :
    ¬ ∀ (settings : Settings) (commands : List (PanelCommand ControlRecord)) (input : PanelInput),
      input.mode = .horizontal →
        let rendered := ((Panel.start settings).run commands).render input
        let lineup := input.lineup Tabs.split
        let split := rendered.panel.overflow.split lineup.natives lineup.cross
        ∀ item ∈ split.cross ++ split.inScope,
          rendered.panel.slots.itemOf? item.id = some item := by
  intro hall
  have hpicked := hall {} [.report (.overflowed [⟨"a"⟩])]
    { mode := .horizontal
      snapshot := {
        filters := [{ id := ⟨"a"⟩, name := "A", hasValue := true }, { id := ⟨"a"⟩, name := "B" }] } }
    rfl
  revert hpicked
  decide

end DashboardFilters
