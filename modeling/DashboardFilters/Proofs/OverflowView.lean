import DashboardFilters.Proofs.OverflowNotices
import DashboardFilters.Proofs.ViewContents
import DashboardFilters.Slots.Recorder
import Mathlib.Data.List.Nodup

/-!
What the row, the drop-down and its trigger say of the overflow. The row compares its items with the
committed ids, the drop-down looks the committed ids up among the items, and the trigger counts what
was found. They agree because a commit leaves only ids of the row, each once.
-/

namespace DashboardFilters

variable {γ : Type}

section Picked

variable {ids : List FilterId} {items : List FilterItem}

theorem map_id_pickedItems (hknown : ∀ id ∈ ids, id ∈ items.map (·.id)) :
    (pickedItems ids items).map (·.id) = ids := by
  induction ids with
  | nil => rfl
  | cons id ids ih =>
      have hfound : (items.reverse.find? (·.id == id)).isSome := by
        obtain ⟨item, hitem, hid⟩ := List.mem_map.1 (hknown id List.mem_cons_self)
        exact List.find?_isSome.2 ⟨item, List.mem_reverse.2 hitem, beq_iff_eq.2 hid⟩
      obtain ⟨item, hitem⟩ := Option.isSome_iff_exists.1 hfound
      have hid : item.id = id := by simpa using List.find?_some hitem
      have hrest := ih fun other hother => hknown other (List.mem_cons_of_mem _ hother)
      have hpicked : pickedItems (id :: ids) items = item :: pickedItems ids items :=
        List.filterMap_cons_some hitem
      rw [hpicked, List.map_cons, hid, hrest]

theorem map_id_filter_pickedItems (hknown : ∀ id ∈ ids, id ∈ items.map (·.id))
    {p : FilterItem → Bool} {q : FilterId → Bool} (hpq : ∀ item ∈ items, p item = q item.id) :
    ((pickedItems ids items).filter p).map (·.id) = ids.filter q := by
  have hcongr : (pickedItems ids items).filter p =
      (pickedItems ids items).filter (q ∘ (·.id)) :=
    List.filter_congr fun item hitem => hpq item (mem_pickedItems hitem).1
  rw [hcongr, ← List.filter_map, map_id_pickedItems hknown]

theorem toList_find?_reverse (hitems : (items.map (·.id)).Nodup) (id : FilterId) :
    (items.reverse.find? (·.id == id)).toList = items.filter (·.id == id) := by
  induction items with
  | nil => rfl
  | cons item items ih =>
      obtain ⟨hitem, hrest⟩ := List.nodup_cons.1 hitems
      rw [List.reverse_cons, List.find?_append]
      by_cases hid : item.id = id
      · have hnone : items.filter (·.id == id) = [] := by
          rw [List.filter_eq_nil_iff]
          intro other hother hsame
          have hmem : other.id ∈ items.map (·.id) := List.mem_map_of_mem hother
          rw [eq_of_beq hsame, ← hid] at hmem
          exact hitem hmem
        have hfound := ih hrest
        rw [hnone, Option.toList_eq_nil_iff] at hfound
        simp [hfound, hnone, hid]
      · simpa [hid] using ih hrest

theorem pickedItems_eq_flatMap (hitems : (items.map (·.id)).Nodup) (ids : List FilterId) :
    pickedItems ids items = ids.flatMap fun id => items.filter (·.id == id) := by
  rw [pickedItems, List.filterMap_eq_flatMap_toList]
  exact List.flatMap_congr fun id _ => toList_find?_reverse hitems id

/-- Looking the ids up among the items finds what looking the items up among the ids does. -/
theorem perm_pickedItems (hitems : (items.map (·.id)).Nodup) (hids : ids.Nodup)
    (hknown : ∀ id ∈ ids, id ∈ items.map (·.id)) :
    (pickedItems ids items).Perm (items.filter fun item => ids.contains item.id) := by
  have hpicked : (pickedItems ids items).Nodup := by
    apply List.Nodup.of_map (·.id)
    rw [map_id_pickedItems hknown]
    exact hids
  rw [List.perm_ext_iff_of_nodup hpicked ((List.Nodup.of_map _ hitems).filter _)]
  intro item
  rw [pickedItems_eq_flatMap hitems]
  simp [and_comm]

end Picked

namespace Overflow

variable {overflow : Overflow} {inScope cross : List FilterItem}

theorem perm_split (overflow : Overflow) (inScope cross : List FilterItem) :
    ((overflow.split inScope cross).cross ++ (overflow.split inScope cross).inScope).Perm
      (pickedItems overflow.ids (inScope ++ cross)) :=
  List.filter_append_perm _ _

theorem isEmpty_split_iff (hknown : ∀ id ∈ overflow.ids, id ∈ (inScope ++ cross).map (·.id)) :
    (overflow.split inScope cross).isEmpty = true ↔ overflow.ids = [] := by
  have hpicked : (overflow.split inScope cross).isEmpty = true ↔
      pickedItems overflow.ids (inScope ++ cross) = [] := by
    rw [OverflowSplit.isEmpty, Bool.and_eq_true, List.isEmpty_iff, List.isEmpty_iff, and_comm,
      ← List.append_eq_nil_iff, ← List.length_eq_zero_iff,
      (overflow.perm_split inScope cross).length_eq, List.length_eq_zero_iff]
  rw [hpicked, ← List.map_eq_nil_iff (f := (·.id)), map_id_pickedItems hknown]

theorem length_active_split (overflow : Overflow) (inScope cross : List FilterItem) :
    (overflow.split inScope cross).active.length =
      (pickedItems overflow.ids (inScope ++ cross)).countP (·.holdsValue) := by
  rw [split_eq, OverflowSplit.active, List.length_append, ← List.countP_eq_length_filter,
    ← List.countP_eq_length_filter, List.countP_filter]
  induction pickedItems overflow.ids (inScope ++ cross) with
  | nil => rfl
  | cons item items ih =>
      rw [List.countP_cons, List.countP_cons, List.countP_cons, ← ih, FilterItem.holdsValue]
      cases item.isCross <;> cases item.hasValue <;> simp <;> omega

theorem length_active_eq_countP (hnodup : ((inScope ++ cross).map (·.id)).Nodup)
    (hids : overflow.ids.Nodup)
    (hknown : ∀ id ∈ overflow.ids, id ∈ (inScope ++ cross).map (·.id)) :
    (overflow.split inScope cross).active.length =
      (inScope ++ cross).countP fun item => item.holdsValue && overflow.isOverflowed item.id := by
  rw [length_active_split, (perm_pickedItems hnodup hids hknown).countP_eq, List.countP_filter]
  rfl

theorem names_active_split (hnodup : ((inScope ++ cross).map (·.id)).Nodup)
    (hinScope : ∀ item ∈ inScope, item.isCross = false)
    (hcross : ∀ item ∈ cross, item.isCross = true) :
    (overflow.split inScope cross).active.map (·.name) =
      (overflow.ids.flatMap fun id =>
          (inScope.filter fun item => item.id == id && item.hasValue).map (·.name))
        ++ overflow.ids.flatMap fun id => (cross.filter (·.id == id)).map (·.name) := by
  rw [split_eq, OverflowSplit.active, List.map_append, pickedItems_eq_flatMap hnodup]
  simp only [List.filter_flatMap, List.map_flatMap, List.filter_append, List.filter_filter]
  congr 1
  · apply List.flatMap_congr
    intro id _
    have hnone : cross.filter
        (fun item => item.hasValue && (!item.isCross && item.id == id)) = [] := by
      rw [List.filter_eq_nil_iff]
      intro item hitem
      simp [hcross item hitem]
    rw [hnone, List.append_nil]
    congr 1
    apply List.filter_congr
    intro item hitem
    rw [hinScope item hitem, Bool.not_false, Bool.true_and, Bool.and_comm]
  · apply List.flatMap_congr
    intro id _
    have hnone : inScope.filter (fun item => item.isCross && item.id == id) = [] := by
      rw [List.filter_eq_nil_iff]
      intro item hitem
      simp [hinScope item hitem]
    rw [hnone, List.nil_append]
    congr 1
    apply List.filter_congr
    intro item hitem
    rw [hcross item hitem, Bool.true_and]

end Overflow

namespace PanelInput

theorem outOfScope_eq_nil_iff (input : PanelInput) :
    (input.lineup Tabs.split).outOfScope = [] ↔ ∀ id ∈ input.nativeIds, id ∈ input.inScopeIds := by
  rw [← List.map_eq_nil_iff, ids_outOfScope, List.filter_eq_nil_iff]
  constructor
  · intro hnone id hid
    obtain ⟨filter, hfilter, rfl⟩ := List.mem_map.1 hid
    cases hin : input.snapshot.tabs.includes filter with
    | true => exact List.mem_map_of_mem (List.mem_filter.2 ⟨hfilter, hin⟩)
    | false =>
        have hout : filter.id ∈ input.outOfScopeIds :=
          List.mem_map_of_mem (List.mem_filter.2 ⟨hfilter, by rw [hin]; rfl⟩)
        simpa using hnone filter.id hout
  · intro hall id hid
    have hnative : id ∈ input.nativeIds := (List.filter_sublist.map _).subset hid
    simpa using hall id hnative

/-- The native filters of an id that are in scope and hold a value. -/
def valued (input : PanelInput) (id : FilterId) : List NativeFilter :=
  input.snapshot.filters.filter fun filter =>
    (filter.id == id && filter.hasValue) && input.snapshot.tabs.includes filter

/-- The cross-filters of an id, unless a native filter has it. -/
def emitted (input : PanelInput) (id : FilterId) : List CrossFilter :=
  input.crossFilters.filter fun filter => filter.id == id && !input.nativeIds.contains filter.id

def valuedNames (input : PanelInput) (ids : List FilterId) : List String :=
  (ids.flatMap input.valued).map (·.name) ++ (ids.flatMap input.emitted).map (·.name)

def holdsValue (input : PanelInput) (ref : SlotRef) : Bool :=
  ref.kind == .cross || !(input.valued ref.id).isEmpty

variable {input : PanelInput}

theorem names_natives (input : PanelInput) (id : FilterId) :
    ((input.lineup Tabs.split).natives.filter
        fun item => item.id == id && item.hasValue).map (·.name) =
      (input.valued id).map (·.name) := by
  rw [lineup, Lineup.natives_ofSplit input.isNative_split]
  exact Tabs.filter_inScope_split _ _ (fun _ _ => rfl) fun _ _ => rfl

theorem names_cross (input : PanelInput) (id : FilterId) :
    ((input.lineup Tabs.split).cross.filter (·.id == id)).map (·.name) =
      (input.emitted id).map (·.name) := by
  rw [lineup, Lineup.cross_ofSplit input.isNative_split, Lineup.undisplaced, List.filter_filter]
  simp only [listed_items_split]
  exact Lineup.filter_numbered _ (fun _ _ => rfl) fun _ _ => rfl

theorem isCross_of_mem_cross {item : FilterItem} (h : item ∈ (input.lineup Tabs.split).cross) :
    item.isCross = true :=
  FilterItem.isCross_iff.2 (Lineup.kind_of_mem_cross input.isNative_split h)

theorem not_isCross_of_mem_natives {item : FilterItem}
    (h : item ∈ (input.lineup Tabs.split).natives) : item.isCross = false :=
  FilterItem.not_isCross_iff.2 (Lineup.kind_of_mem_natives input.isNative_split h)

theorem isCross_of_mem_row {item : FilterItem} (h : item ∈ (input.lineup Tabs.split).row) :
    item.isCross = !input.nativeIds.contains item.id := by
  rw [← listed_items_split]
  exact Lineup.isCross_of_mem_present input.isNative_split (List.mem_append_left _ h)

theorem holdsValue_eq (hnodup : ((input.lineup Tabs.split).row.map (·.id)).Nodup)
    {item : FilterItem} (hitem : item ∈ (input.lineup Tabs.split).row) {ref : SlotRef}
    (hid : ref.id = item.id) (hkind : ref.kind = item.kind) :
    input.holdsValue ref = item.holdsValue := by
  have hrow := (input.lineup Tabs.split).cross_append_natives
  rw [holdsValue, FilterItem.holdsValue, hid, hkind]
  cases hcross : item.isCross with
  | true =>
      rw [FilterItem.isCross] at hcross
      rw [hcross]
      rfl
  | false =>
      have hnative : item ∈ (input.lineup Tabs.split).natives := by
        rw [← hrow] at hitem
        rcases List.mem_append.1 hitem with hmem | hmem
        · rw [isCross_of_mem_cross hmem] at hcross
          cases hcross
        · exact hmem
      have hempty : (input.valued item.id).isEmpty =
          ((input.lineup Tabs.split).natives.filter
            fun other => other.id == item.id && other.hasValue).isEmpty := by
        rw [← List.isEmpty_map, ← names_natives, List.isEmpty_map]
      rw [FilterItem.isCross] at hcross
      rw [hcross, hempty, Bool.false_or, Bool.false_or]
      cases hvalue : item.hasValue with
      | true =>
          have hmem : item ∈ (input.lineup Tabs.split).natives.filter
              fun other => other.id == item.id && other.hasValue :=
            List.mem_filter.2 ⟨hnative, by simp [hvalue]⟩
          simpa using List.ne_nil_of_mem hmem
      | false =>
          rw [Bool.not_eq_false', List.isEmpty_iff, List.filter_eq_nil_iff]
          intro other hother hsame
          obtain ⟨hsame, hothers⟩ := Bool.and_eq_true_iff.1 hsame
          have hmem : other ∈ (input.lineup Tabs.split).row := by
            rw [← hrow]
            exact List.mem_append_right _ hother
          rw [List.inj_on_of_nodup_map hnodup hmem hitem (eq_of_beq hsame), hvalue] at hothers
          cases hothers

end PanelInput

theorem Lineup.of_mem_entries {lineup : Lineup} {overflow : Overflow} {table : SlotTable γ}
    {items : List FilterItem} {entry : RowEntry}
    (h : entry ∈ items.filterMap (lineup.rowEntry? overflow table)) :
    ∃ item ∈ items, entry.slot.id = item.id ∧ entry.slot.kind = item.kind ∧
      entry.overflowed = overflow.isOverflowed item.id ∧
      entry.lastCrossFilter =
        (!lineup.natives.isEmpty && (lineup.cross.getLast?.map (·.id)) == some item.id) := by
  obtain ⟨item, hitem, hentry⟩ := List.mem_filterMap.1 h
  obtain ⟨ref, href, rfl⟩ := Option.map_eq_some_iff.1 hentry
  obtain ⟨key, -, rfl⟩ := Option.map_eq_some_iff.1 href
  exact ⟨item, hitem, rfl, rfl, rfl, rfl⟩

theorem Lineup.overflowed_of_mem_row {lineup : Lineup} {snapshot : Snapshot}
    {labels : TriggerLabels} {overflow : Overflow} {table : SlotTable γ} {entry : RowEntry}
    (h : entry ∈ (lineup.horizontalView snapshot labels overflow table).row) :
    entry.overflowed = overflow.isOverflowed entry.slot.id := by
  obtain ⟨item, -, hid, -, hoverflowed, -⟩ := of_mem_entries h
  rw [hoverflowed, hid]

namespace Panel

variable [Control γ] {panel : Panel γ} {input : PanelInput}

def horizontalIn (panel : Panel γ) (input : PanelInput) : HorizontalView :=
  (input.lineup Tabs.split).horizontalView input.snapshot panel.settings.labels
    (panel.overflowIn Tabs.split input) (panel.render input).panel.slots

def splitIn (panel : Panel γ) (input : PanelInput) : OverflowSplit :=
  (panel.overflowIn Tabs.split input).split (input.lineup Tabs.split).natives
    (input.lineup Tabs.split).cross

theorem entry_of_mem_row {entry : RowEntry} (h : entry ∈ (panel.horizontalIn input).row) :
    entry.overflowed = (panel.overflowIn Tabs.split input).isOverflowed entry.slot.id :=
  Lineup.overflowed_of_mem_row h

theorem map_id_row (h : panel.slots.Indexed) :
    (panel.horizontalIn input).row.map (·.slot.id) =
      (input.lineup Tabs.split).row.map (·.id) :=
  Lineup.map_id_row
    ((holds_renderWith h Tabs.split input).subset (List.subset_append_left _ _)) _

theorem countP_row (h : panel.slots.Indexed) {p : RowEntry → Bool} {q : FilterItem → Bool}
    (hpq : ∀ item ∈ (input.lineup Tabs.split).row, ∀ entry : RowEntry,
      entry.slot.id = item.id → entry.slot.kind = item.kind →
        entry.overflowed = (panel.overflowIn Tabs.split input).isOverflowed item.id →
          p entry = q item) :
    (panel.horizontalIn input).row.countP p = (input.lineup Tabs.split).row.countP q := by
  show List.countP p (List.filterMap _ _) = _
  rw [List.countP_filterMap]
  apply List.countP_congr
  intro item hitem
  obtain ⟨key, hkey⟩ := Option.isSome_iff_exists.1
    (holds_renderWith h Tabs.split input item (List.mem_append_left _ hitem))
  have hkey : (panel.render input).panel.slots.keyOf item.id = some key := hkey
  have hentry : Lineup.rowEntry? (input.lineup Tabs.split) (panel.overflowIn Tabs.split input)
      (panel.render input).panel.slots item = some
        { slot := { key, id := item.id, kind := item.kind }
          overflowed := (panel.overflowIn Tabs.split input).isOverflowed item.id
          lastCrossFilter := !(input.lineup Tabs.split).natives.isEmpty &&
            ((input.lineup Tabs.split).cross.getLast?.map (·.id)) == some item.id } := by
    unfold Lineup.rowEntry? SlotTable.slotRef?
    rw [hkey]
    rfl
  rw [hentry, Option.map_some, Option.getD_some, hpq item hitem _ rfl rfl rfl]

theorem mem_row_of_mem_groups {item : FilterItem}
    (h : item ∈ (input.lineup Tabs.split).natives ++ (input.lineup Tabs.split).cross) :
    item ∈ (input.lineup Tabs.split).row :=
  (Lineup.perm_groups _).mem_iff.1 h

omit [Control γ] in
theorem known_overflowIn {resolve : ScopeResolver} (hmode : input.mode = .horizontal) :
    ∀ id ∈ (panel.overflowIn resolve input).ids,
      id ∈ ((input.lineup resolve).natives ++ (input.lineup resolve).cross).map (·.id) := by
  intro id hid
  have hrow := panel.mem_row_of_mem_overflowIn resolve input hmode hid
  exact ((Lineup.perm_groups _).map FilterItem.id).mem_iff.2 hrow

omit [Control γ] in
theorem map_id_splitIn_cross (hmode : input.mode = .horizontal) :
    (panel.splitIn input).cross.map (·.id) =
      (panel.overflowIn Tabs.split input).ids.filter fun id => !input.nativeIds.contains id := by
  refine map_id_filter_pickedItems (known_overflowIn hmode) fun item hitem => ?_
  exact PanelInput.isCross_of_mem_row (mem_row_of_mem_groups hitem)

omit [Control γ] in
theorem map_id_splitIn_inScope (hmode : input.mode = .horizontal) :
    (panel.splitIn input).inScope.map (·.id) =
      (panel.overflowIn Tabs.split input).ids.filter input.nativeIds.contains := by
  refine map_id_filter_pickedItems (known_overflowIn hmode) fun item hitem => ?_
  rw [PanelInput.isCross_of_mem_row (mem_row_of_mem_groups hitem), Bool.not_not]

theorem map_id_slotRefs_splitIn (h : panel.slots.Indexed) {items : List FilterItem}
    (hitems : ∀ item ∈ items,
      item ∈ (panel.splitIn input).cross ++ (panel.splitIn input).inScope) :
    ((panel.render input).panel.slots.slotRefs items).map (·.id) = items.map (·.id) :=
  map_id_slotRefs_render h fun item hitem =>
    List.mem_append_left _ (Lineup.mem_split (hitems item hitem)).1

theorem dropdown_eq_none_iff (h : panel.slots.Indexed) (hmode : input.mode = .horizontal) :
    (panel.horizontalIn input).dropdown = none ↔
      (panel.overflowIn Tabs.split input).ids = [] ∧
        ∀ id ∈ input.nativeIds, id ∈ input.inScopeIds := by
  have hslots : (panel.render input).panel.slots.slotRefs (input.lineup Tabs.split).outOfScope = []
      ↔ (input.lineup Tabs.split).outOfScope = [] := by
    rw [← List.map_eq_nil_iff, map_id_slotRefs_render h fun item hitem =>
      List.mem_append_right _ hitem, List.map_eq_nil_iff]
  rw [← Overflow.isEmpty_split_iff (known_overflowIn hmode), ← input.outOfScope_eq_nil_iff, ← hslots,
    ← Lineup.sectionSlots_outOfScopeSection (sectionSuffices_lineup input)]
  exact Lineup.dropdown?_eq_none_iff

theorem dropdown_eq_some {dropdown : Dropdown}
    (h : (panel.horizontalIn input).dropdown = some dropdown) :
    dropdown.cross = (panel.render input).panel.slots.slotRefs (panel.splitIn input).cross ∧
      dropdown.inScope = (panel.render input).panel.slots.slotRefs (panel.splitIn input).inScope :=
  Lineup.dropdown?_eq_some h

omit [Control γ] in
theorem nodup_groups (hnodup : ((input.lineup Tabs.split).row.map (·.id)).Nodup) :
    (((input.lineup Tabs.split).natives ++ (input.lineup Tabs.split).cross).map (·.id)).Nodup :=
  ((Lineup.perm_groups _).map FilterItem.id).nodup_iff.2 hnodup

theorem count_trigger (h : panel.slots.Indexed) (hmode : input.mode = .horizontal)
    (hnodup : ((input.lineup Tabs.split).row.map (·.id)).Nodup) :
    (panel.horizontalIn input).trigger.count =
      (panel.horizontalIn input).row.countP fun entry =>
        entry.overflowed && input.holdsValue entry.slot := by
  have hcount : (panel.horizontalIn input).trigger.count =
      (input.lineup Tabs.split).row.countP fun item =>
        item.holdsValue && (panel.overflowIn Tabs.split input).isOverflowed item.id := by
    rw [← (Lineup.perm_groups _).countP_eq]
    exact Overflow.length_active_eq_countP (nodup_groups hnodup)
      (panel.nodup_ids_overflowIn Tabs.split input hmode) (known_overflowIn hmode)
  rw [hcount]
  refine (countP_row h fun item hitem entry hid hkind hflag => ?_).symm
  rw [hflag, PanelInput.holdsValue_eq hnodup hitem hid hkind, Bool.and_comm]

omit [Control γ] in
theorem names_splitIn (hnodup : ((input.lineup Tabs.split).row.map (·.id)).Nodup) :
    (panel.splitIn input).active.map (·.name) =
      input.valuedNames (panel.overflowIn Tabs.split input).ids := by
  rw [splitIn, Overflow.names_active_split (nodup_groups hnodup)
    (fun _ hitem => PanelInput.not_isCross_of_mem_natives hitem)
    (fun _ hitem => PanelInput.isCross_of_mem_cross hitem)]
  simp only [PanelInput.names_natives, PanelInput.names_cross, PanelInput.valuedNames,
    List.map_flatMap]

theorem tooltip_trigger (hnodup : ((input.lineup Tabs.split).row.map (·.id)).Nodup) :
    (panel.horizontalIn input).trigger.tooltip =
      if (panel.horizontalIn input).trigger.count = 0 then panel.settings.labels.noneApplied
      else panel.settings.labels.applied ++
        ", ".intercalate (input.valuedNames (panel.overflowIn Tabs.split input).ids) := by
  have htooltip : (panel.horizontalIn input).trigger.tooltip =
      panel.settings.labels.tooltip ((panel.splitIn input).active.map (·.name)) := rfl
  have hcount : (panel.horizontalIn input).trigger.count =
      ((panel.splitIn input).active.map (·.name)).length := (List.length_map _).symm
  rw [htooltip, hcount, names_splitIn hnodup, TriggerLabels.tooltip]
  simp only [List.isEmpty_iff_length_eq_zero]

end Panel

structure HorizontalView.ShowsOverflow (view : HorizontalView) (labels : TriggerLabels)
    (input : PanelInput) (ids : List FilterId) : Prop where
  nodup : ids.Nodup
  known : ∀ id ∈ ids, id ∈ view.row.map (·.slot.id)
  flagged : ∀ entry ∈ view.row, entry.overflowed = true ↔ entry.slot.id ∈ ids
  /-- Without a drop-down nothing is hidden, and every native filter has one of its id in scope. -/
  noDropdown : view.dropdown = none ↔ ids = [] ∧ ∀ id ∈ input.nativeIds, id ∈ input.inScopeIds
  cross : ∀ dropdown, view.dropdown = some dropdown →
    dropdown.cross.map (·.id) = (ids.filter fun id => !input.nativeIds.contains id) ∧
      ∀ ref ∈ dropdown.cross, ref.kind = .cross
  inScope : ∀ dropdown, view.dropdown = some dropdown →
    dropdown.inScope.map (·.id) = ids.filter input.nativeIds.contains ∧
      ∀ ref ∈ dropdown.inScope, ref.kind = .native
  count : (view.row.map (·.slot.id)).Nodup → view.trigger.count =
    view.row.countP fun entry => entry.overflowed && input.holdsValue entry.slot
  tooltip : (view.row.map (·.slot.id)).Nodup → view.trigger.tooltip =
    if view.trigger.count = 0 then labels.noneApplied
    else labels.applied ++ ", ".intercalate (input.valuedNames ids)

/-- The row, the drop-down and its trigger agree with the committed ids, whatever happened to the
panel before. -/
theorem showsOverflow_render [Control γ] (settings : Settings) (commands : List (PanelCommand γ))
    (input : PanelInput) (hmode : input.mode = .horizontal) :
    let rendered := ((Panel.start settings).run commands).render input
    ∃ view, rendered.view = .horizontal view ∧
      view.ShowsOverflow settings.labels input rendered.panel.overflow.ids := by
  have h : ((Panel.start (γ := γ) settings).run commands).slots.Indexed :=
    Panel.indexed_run SlotTable.indexed_empty commands
  have hsettings : ((Panel.start (γ := γ) settings).run commands).settings = settings :=
    Panel.settings_run _ commands
  generalize (Panel.start (γ := γ) settings).run commands = panel at h hsettings
  intro rendered
  refine ⟨panel.horizontalIn input, Panel.view_of_horizontal hmode panel, ?_⟩
  show (panel.horizontalIn input).ShowsOverflow settings.labels input
    (panel.overflowIn Tabs.split input).ids
  have hrow : (panel.horizontalIn input).row.map (·.slot.id) =
      (input.lineup Tabs.split).row.map (·.id) := Panel.map_id_row h
  constructor
  case nodup => exact panel.nodup_ids_overflowIn Tabs.split input hmode
  case known =>
    intro id hid
    rw [hrow]
    exact panel.mem_row_of_mem_overflowIn Tabs.split input hmode hid
  case flagged =>
    intro entry hentry
    rw [Panel.entry_of_mem_row hentry, Overflow.isOverflowed, List.contains_iff_mem]
  case noDropdown => exact Panel.dropdown_eq_none_iff h hmode
  case cross =>
    intro dropdown hdropdown
    obtain ⟨hcross, -⟩ := Panel.dropdown_eq_some hdropdown
    rw [hcross, Panel.map_id_slotRefs_splitIn h fun _ hitem => List.mem_append_left _ hitem,
      Panel.map_id_splitIn_cross hmode]
    refine ⟨rfl, fun ref href => ?_⟩
    obtain ⟨item, hitem, -, -, hkind⟩ := SlotTable.mem_slotRefs_iff.1 href
    exact hkind.trans (FilterItem.isCross_iff.1 (List.mem_filter.1 hitem).2)
  case inScope =>
    intro dropdown hdropdown
    obtain ⟨-, hinScope⟩ := Panel.dropdown_eq_some hdropdown
    rw [hinScope, Panel.map_id_slotRefs_splitIn h fun _ hitem => List.mem_append_right _ hitem,
      Panel.map_id_splitIn_inScope hmode]
    refine ⟨rfl, fun ref href => ?_⟩
    obtain ⟨item, hitem, -, -, hkind⟩ := SlotTable.mem_slotRefs_iff.1 href
    have hnative : item.isCross = false := by simpa using (List.mem_filter.1 hitem).2
    exact hkind.trans (FilterItem.not_isCross_iff.1 hnative)
  case count =>
    intro hnodup
    rw [hrow] at hnodup
    exact Panel.count_trigger h hmode hnodup
  case tooltip =>
    intro hnodup
    rw [hrow] at hnodup
    rw [Panel.tooltip_trigger hnodup, hsettings]

/-- Two filters that hold a value and one that does not are hidden. -/
theorem showsOverflow_of_report :
    let input : PanelInput :=
      { mode := .horizontal
        snapshot := {
          filters := [{ id := ⟨"a"⟩, name := "A", hasValue := true }, { id := ⟨"b"⟩, name := "B" }] }
        crossFilters :=
          [{ chart := 7, name := "Sales", column := none, value := none, path := [] }] }
    let commands : List (PanelCommand ControlRecord) :=
      [.report (.overflowed [⟨"Sales7"⟩, ⟨"b"⟩, ⟨"a"⟩])]
    let rendered := ((Panel.start {}).run commands).render input
    input.mode = .horizontal ∧ ∃ view, rendered.view = .horizontal view ∧
      view.ShowsOverflow {} input rendered.panel.overflow.ids := by
  intro input commands rendered
  have hmode : input.mode = .horizontal := rfl
  clear_value input commands
  exact ⟨hmode, showsOverflow_render {} commands input hmode⟩

end DashboardFilters
