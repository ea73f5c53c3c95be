import DashboardFilters.Proofs.PanelRun

/-!
What a view shows. Three rules deal with filters of one id (of native filters the one in scope wins,
and a native filter wins over a cross-filter on either side); together they leave every filter of a
pass in exactly one group of the view.
-/

namespace DashboardFilters

variable {γ : Type}

def sectionSlots (group : Option CollapsibleSection) : List SlotRef :=
  (group.map (·.slots)).getD []

namespace PanelView

def row : PanelView → List SlotRef
  | vertical view => view.cross ++ view.inScope
  | horizontal view => view.row.map (·.slot)

def cross : PanelView → List SlotRef
  | vertical view => view.cross
  | horizontal view => (view.row.map (·.slot)).filter (·.kind = .cross)

def inScope : PanelView → List SlotRef
  | vertical view => view.inScope
  | horizontal view => (view.row.map (·.slot)).filter (·.kind = .native)

def outOfScope : PanelView → List SlotRef
  | vertical view => sectionSlots view.outOfScope
  | horizontal view => sectionSlots (view.dropdown.bind (·.outOfScope))

def hidden : PanelView → List SlotRef
  | vertical _ => []
  | horizontal view =>
      (view.dropdown.map fun dropdown => dropdown.cross ++ dropdown.inScope).getD []

def refs (view : PanelView) : List SlotRef :=
  view.row ++ view.hidden ++ view.outOfScope

end PanelView

namespace SlotTable

variable {table : SlotTable γ} {items : List FilterItem} {ref : SlotRef}

theorem slotRefs_append (table : SlotTable γ) (first second : List FilterItem) :
    table.slotRefs (first ++ second) = table.slotRefs first ++ table.slotRefs second :=
  List.filterMap_append

theorem mem_slotRefs_iff :
    ref ∈ table.slotRefs items ↔
      ∃ item ∈ items,
        table.keyOf item.id = some ref.key ∧ ref.id = item.id ∧ ref.kind = item.kind := by
  simp only [slotRefs, List.mem_filterMap, slotRef?, Option.map_eq_some_iff]
  constructor
  · intro hmem
    obtain ⟨item, hitem, key, hkey, rfl⟩ := hmem
    exact ⟨item, hitem, hkey, rfl, rfl⟩
  · intro hmem
    obtain ⟨item, hitem, hkey, hid, hkind⟩ := hmem
    refine ⟨item, hitem, ref.key, hkey, ?_⟩
    rw [← hid, ← hkind]

def Holds (table : SlotTable γ) (items : List FilterItem) : Prop :=
  ∀ item ∈ items, (table.keyOf item.id).isSome

theorem Holds.subset {others : List FilterItem} (h : table.Holds items)
    (hsubset : others ⊆ items) : table.Holds others :=
  fun _ hitem => h _ (hsubset hitem)

theorem map_id_slotRefs (h : table.Holds items) :
    (table.slotRefs items).map (·.id) = items.map (·.id) := by
  induction items with
  | nil => rfl
  | cons item items ih =>
      obtain ⟨key, hkey⟩ := Option.isSome_iff_exists.1 (h item List.mem_cons_self)
      have href : table.slotRef? item = some { key, id := item.id, kind := item.kind } := by
        rw [slotRef?, hkey]
        rfl
      rw [slotRefs, List.filterMap_cons_some href, List.map_cons, List.map_cons]
      rw [← ih fun other hother => h other (List.mem_cons_of_mem _ hother)]
      rfl

end SlotTable

/-- The items of the ids, in the order of the ids. Of several items of one id the last counts. -/
def pickedItems (ids : List FilterId) (items : List FilterItem) : List FilterItem :=
  ids.filterMap fun id => items.reverse.find? (·.id == id)

theorem mem_pickedItems {ids : List FilterId} {items : List FilterItem} {item : FilterItem}
    (h : item ∈ pickedItems ids items) : item ∈ items ∧ item.id ∈ ids := by
  obtain ⟨id, hid, hitem⟩ := List.mem_filterMap.1 h
  have hsame : item.id = id := by simpa using List.find?_some hitem
  rw [hsame]
  exact ⟨List.mem_reverse.1 (List.mem_of_find?_eq_some hitem), hid⟩

theorem Overflow.split_eq (overflow : Overflow) (inScope cross : List FilterItem) :
    overflow.split inScope cross =
      { inScope := (pickedItems overflow.ids (inScope ++ cross)).filter (!·.isCross)
        cross := (pickedItems overflow.ids (inScope ++ cross)).filter (·.isCross) } := rfl

namespace Lineup

variable {table : SlotTable γ}

theorem perm_groups (lineup : Lineup) : (lineup.natives ++ lineup.cross).Perm lineup.row := by
  have hrow : lineup.row = lineup.cross ++ lineup.natives := lineup.cross_append_natives.symm
  rw [hrow]
  exact List.perm_append_comm

theorem map_slot_entries (lineup : Lineup) (overflow : Overflow) (table : SlotTable γ)
    (items : List FilterItem) :
    (items.filterMap (lineup.rowEntry? overflow table)).map (·.slot) = table.slotRefs items := by
  rw [List.map_filterMap, SlotTable.slotRefs]
  congr 1
  funext item
  unfold rowEntry?
  rw [Option.map_map]
  exact Option.map_id'

theorem map_slot_row (lineup : Lineup) (overflow : Overflow) (table : SlotTable γ) :
    (lineup.row.filterMap (lineup.rowEntry? overflow table)).map (·.slot) =
      table.slotRefs lineup.row :=
  lineup.map_slot_entries overflow table lineup.row

theorem map_id_entries (lineup : Lineup) (overflow : Overflow) {items : List FilterItem}
    (h : table.Holds items) :
    (items.filterMap (lineup.rowEntry? overflow table)).map (·.slot.id) = items.map (·.id) := by
  rw [← SlotTable.map_id_slotRefs h, ← lineup.map_slot_entries overflow table items, List.map_map]
  rfl

theorem map_id_row {lineup : Lineup} (h : table.Holds lineup.row) (overflow : Overflow) :
    (lineup.row.filterMap (lineup.rowEntry? overflow table)).map (·.slot.id) =
      lineup.row.map (·.id) :=
  lineup.map_id_entries overflow h

theorem mem_split {lineup : Lineup} {overflow : Overflow} {item : FilterItem}
    (h : item ∈ (overflow.split lineup.natives lineup.cross).cross ++
      (overflow.split lineup.natives lineup.cross).inScope) :
    item ∈ lineup.row ∧ item.id ∈ overflow.ids := by
  rw [Overflow.split_eq] at h
  have hpicked : item ∈ pickedItems overflow.ids (lineup.natives ++ lineup.cross) := by
    rcases List.mem_append.1 h with hcross | hin
    · exact (List.mem_filter.1 hcross).1
    · exact (List.mem_filter.1 hin).1
  obtain ⟨hitem, hid⟩ := mem_pickedItems hpicked
  exact ⟨lineup.perm_groups.mem_iff.1 hitem, hid⟩

end Lineup

theorem SlotTable.filter_kind_slotRefs {table : SlotTable γ} {items : List FilterItem}
    {kind : FilterKind} (h : ∀ item ∈ items, item.kind = kind) :
    (table.slotRefs items).filter (·.kind = kind) = table.slotRefs items := by
  rw [List.filter_eq_self]
  intro ref href
  obtain ⟨item, hitem, -, -, hkind⟩ := mem_slotRefs_iff.1 href
  simpa [hkind] using h item hitem

theorem SlotTable.filter_other_kind_slotRefs {table : SlotTable γ} {items : List FilterItem}
    {kind other : FilterKind} (h : ∀ item ∈ items, item.kind = kind) (hne : kind ≠ other) :
    (table.slotRefs items).filter (·.kind = other) = [] := by
  rw [List.filter_eq_nil_iff]
  intro ref href
  obtain ⟨item, hitem, -, -, hkind⟩ := mem_slotRefs_iff.1 href
  simpa [hkind, h item hitem] using hne

structure Composed (lineup : Lineup) (table : SlotTable γ) (view : PanelView) : Prop where
  row : view.row = table.slotRefs lineup.row
  cross : view.cross = table.slotRefs lineup.cross
  inScope : view.inScope = table.slotRefs lineup.natives
  outOfScope : view.outOfScope = table.slotRefs lineup.outOfScope
  hidden : ∀ ref ∈ view.hidden, ref ∈ view.row

namespace Lineup

variable {lineup : Lineup} {snapshot : Snapshot} {table : SlotTable γ}

def SectionSuffices (lineup : Lineup) (snapshot : Snapshot) : Prop :=
  (snapshot.tabs.hasTabs && !snapshot.filters.isEmpty) = false → lineup.outOfScope = []

theorem sectionSlots_outOfScopeSection (h : lineup.SectionSuffices snapshot) :
    sectionSlots (lineup.outOfScopeSection snapshot table) = table.slotRefs lineup.outOfScope := by
  unfold outOfScopeSection
  split
  · rfl
  · rename_i hno
    rw [h (by simpa using hno)]
    rfl

theorem sectionSlots_dropdown? (h : lineup.SectionSuffices snapshot) (split : OverflowSplit) :
    sectionSlots ((lineup.dropdown? snapshot split table).bind (·.outOfScope)) =
      table.slotRefs lineup.outOfScope := by
  have hsection : sectionSlots (lineup.outOfScopeSection snapshot table) =
      table.slotRefs lineup.outOfScope := sectionSlots_outOfScopeSection h
  simp only [dropdown?]
  split
  · rename_i hempty
    have hslots := (Bool.and_eq_true_iff.1 hempty).2
    rw [← hsection]
    cases hgroup : lineup.outOfScopeSection snapshot table with
    | none => rfl
    | some group =>
        rw [hgroup] at hslots
        exact (List.isEmpty_iff.1 hslots).symm
  · exact hsection

theorem dropdown?_eq_none_iff {split : OverflowSplit} :
    lineup.dropdown? snapshot split table = none ↔
      split.isEmpty = true ∧ sectionSlots (lineup.outOfScopeSection snapshot table) = [] := by
  have hslots : ∀ group : Option CollapsibleSection,
      (group.map (·.slots.isEmpty)).getD true = true ↔ sectionSlots group = [] := by
    intro group
    cases group with
    | none => exact iff_of_true rfl rfl
    | some group => exact List.isEmpty_iff
  simp only [dropdown?, ite_eq_left_iff, reduceCtorEq, imp_false, Classical.not_not,
    Bool.and_eq_true, hslots]

theorem dropdown?_eq_some {split : OverflowSplit} {dropdown : Dropdown}
    (h : lineup.dropdown? snapshot split table = some dropdown) :
    dropdown.cross = table.slotRefs split.cross ∧
      dropdown.inScope = table.slotRefs split.inScope := by
  simp only [dropdown?] at h
  split at h
  · cases h
  · cases h
    exact ⟨rfl, rfl⟩

theorem mem_hidden_horizontalView {labels : TriggerLabels} {overflow : Overflow} {ref : SlotRef}
    (h : ref ∈ (PanelView.horizontal
      (lineup.horizontalView snapshot labels overflow table)).hidden) :
    ref ∈ table.slotRefs lineup.row ∧ ref.id ∈ overflow.ids := by
  simp only [PanelView.hidden, horizontalView, dropdown?] at h
  split at h
  · cases h
  · have hmem : ref ∈ table.slotRefs ((overflow.split lineup.natives lineup.cross).cross ++
        (overflow.split lineup.natives lineup.cross).inScope) := by
      rw [SlotTable.slotRefs_append]
      exact h
    obtain ⟨item, hitem, hkey, hid, hkind⟩ := SlotTable.mem_slotRefs_iff.1 hmem
    obtain ⟨hrow, hoverflowed⟩ := mem_split hitem
    rw [hid]
    exact ⟨SlotTable.mem_slotRefs_iff.2 ⟨item, hrow, hkey, hid, hkind⟩, hoverflowed⟩

theorem composed_verticalView (h : lineup.SectionSuffices snapshot) :
    Composed lineup table (.vertical (lineup.verticalView snapshot table)) where
  row := by
    rw [← cross_append_natives lineup, SlotTable.slotRefs_append]
    rfl
  cross := rfl
  inScope := rfl
  outOfScope := sectionSlots_outOfScopeSection h
  hidden := fun _ href => absurd href List.not_mem_nil

theorem composed_horizontalView (h : lineup.SectionSuffices snapshot)
    (hcross : ∀ item ∈ lineup.cross, item.kind = .cross)
    (hnatives : ∀ item ∈ lineup.natives, item.kind = .native)
    (labels : TriggerLabels) (overflow : Overflow) :
    Composed lineup table
      (.horizontal (lineup.horizontalView snapshot labels overflow table)) where
  row := lineup.map_slot_row overflow table
  cross := by
    show List.filter _ (List.map _ (lineup.row.filterMap (lineup.rowEntry? overflow table))) = _
    rw [map_slot_row, ← cross_append_natives, SlotTable.slotRefs_append, List.filter_append,
      SlotTable.filter_kind_slotRefs hcross,
      SlotTable.filter_other_kind_slotRefs hnatives (by decide), List.append_nil]
  inScope := by
    show List.filter _ (List.map _ (lineup.row.filterMap (lineup.rowEntry? overflow table))) = _
    rw [map_slot_row, ← cross_append_natives, SlotTable.slotRefs_append, List.filter_append,
      SlotTable.filter_other_kind_slotRefs hcross (by decide),
      SlotTable.filter_kind_slotRefs hnatives, List.nil_append]
  outOfScope := sectionSlots_dropdown? h _
  hidden := by
    intro ref href
    show ref ∈ (lineup.row.filterMap (lineup.rowEntry? overflow table)).map (·.slot)
    rw [map_slot_row]
    exact (mem_hidden_horizontalView href).1

end Lineup

namespace Panel

variable [Control γ] {panel : Panel γ} {id : FilterId}

theorem slot_renderWith_of_contains (h : panel.slots.Indexed) {resolve : ScopeResolver}
    {input : PanelInput} (hcontains : input.Contains resolve id) :
    ∃ key slot, (panel.renderWith resolve input).panel.slots.keyOf id = some key ∧
      (panel.renderWith resolve input).panel.slots.get? key = some slot ∧
        (input.lineup resolve).present.find? (·.id = id) = some slot.item := by
  have hmem := mem_present_lineup_iff.2 hcontains
  have hallocated := allocated_spec h resolve input
  have htouched := touched_renderWith h resolve input
  cases hkey : panel.slots.keyOf id with
  | none =>
      obtain ⟨key, serial, item, hitem, -, hkey', hslot⟩ := hallocated.opened hmem hkey
      exact ⟨key, _, (htouched.keyOf id).trans hkey', htouched.slot hkey' hslot, hitem⟩
  | some key =>
      obtain ⟨slot, hslot, -⟩ := h.resolves hkey
      obtain ⟨item, hitem, hkey', hslot'⟩ := hallocated.retained hmem hkey hslot
      exact ⟨key, _, (htouched.keyOf id).trans hkey', htouched.slot hkey' hslot', hitem⟩

theorem isSome_keyOf_renderWith_iff (h : panel.slots.Indexed) {resolve : ScopeResolver}
    {input : PanelInput} :
    ((panel.renderWith resolve input).panel.slots.keyOf id).isSome ↔ input.Contains resolve id :=
  isSome_keyOf_step_iff h (.render resolve input)

theorem holds_renderWith (h : panel.slots.Indexed) (resolve : ScopeResolver)
    (input : PanelInput) :
    (panel.renderWith resolve input).panel.slots.Holds (input.lineup resolve).present := by
  intro item hitem
  have hcontains := mem_present_lineup_iff.1 (List.mem_map_of_mem (f := (·.id)) hitem)
  exact (isSome_keyOf_renderWith_iff h).2 hcontains

theorem view_renderWith_of_vertical (resolve : ScopeResolver) {input : PanelInput}
    (h : input.mode = .vertical) (panel : Panel γ) :
    (panel.renderWith resolve input).view =
      .vertical ((input.lineup resolve).verticalView input.snapshot
        (panel.renderWith resolve input).panel.slots) := by
  cases input
  cases h
  rfl

theorem view_renderWith_of_horizontal (resolve : ScopeResolver) {input : PanelInput}
    (h : input.mode = .horizontal) (panel : Panel γ) :
    (panel.renderWith resolve input).view =
      .horizontal ((input.lineup resolve).horizontalView input.snapshot panel.settings.labels
        (panel.renderWith resolve input).panel.overflow
        (panel.renderWith resolve input).panel.slots) := by
  cases input
  cases h
  rfl

theorem view_of_vertical {input : PanelInput} (h : input.mode = .vertical) (panel : Panel γ) :
    (panel.render input).view =
      .vertical ((input.lineup Tabs.split).verticalView input.snapshot
        (panel.render input).panel.slots) :=
  view_renderWith_of_vertical Tabs.split h panel

theorem view_of_horizontal {input : PanelInput} (h : input.mode = .horizontal) (panel : Panel γ) :
    (panel.render input).view =
      .horizontal ((input.lineup Tabs.split).horizontalView input.snapshot panel.settings.labels
        (panel.render input).panel.overflow (panel.render input).panel.slots) :=
  view_renderWith_of_horizontal Tabs.split h panel

omit [Control γ] in
theorem sectionSuffices_lineup (input : PanelInput) :
    (input.lineup Tabs.split).SectionSuffices input.snapshot := by
  intro hno
  have hout := Tabs.outOfScope_split_of_no_section hno
  rw [PanelInput.lineup, PanelInput.split, Lineup.outOfScope_ofSplit, hout]
  rfl

theorem composed_render (panel : Panel γ) (input : PanelInput) :
    Composed (input.lineup Tabs.split) (panel.render input).panel.slots
      (panel.render input).view := by
  have hnative := Tabs.isNative_split input.snapshot.filters input.snapshot.tabs
  have hsection := sectionSuffices_lineup input
  cases hmode : input.mode with
  | vertical =>
      rw [view_of_vertical hmode]
      exact Lineup.composed_verticalView hsection
  | horizontal =>
      rw [view_of_horizontal hmode]
      apply Lineup.composed_horizontalView hsection
      · exact fun item hitem => Lineup.kind_of_mem_cross hnative hitem
      · exact fun item hitem => Lineup.kind_of_mem_natives hnative hitem

end Panel

namespace PanelInput

def nativeIds (input : PanelInput) : List FilterId :=
  input.snapshot.filters.map (·.id)

def crossIds (input : PanelInput) : List FilterId :=
  input.crossFilters.map (·.id)

/-- The ids of the native filters in scope, and of those out of scope; an id configured twice may be
among both. -/
def inScopeIds (input : PanelInput) : List FilterId :=
  (input.snapshot.filters.filter input.snapshot.tabs.includes).map (·.id)

def outOfScopeIds (input : PanelInput) : List FilterId :=
  (input.snapshot.filters.filter fun filter => !input.snapshot.tabs.includes filter).map (·.id)

/-- The view shows every filter of the input once, with the slots of the table. -/
structure ShownBy (input : PanelInput) (table : SlotTable γ) (view : PanelView) : Prop where
  keyed : ∀ id, (table.keyOf id).isSome ↔ id ∈ input.nativeIds ∨ id ∈ input.crossIds
  held : ∀ id, id ∈ table.entries.map (·.2.item.id) ↔ id ∈ input.nativeIds ∨ id ∈ input.crossIds
  referenced : ∀ id, id ∈ (view.row ++ view.outOfScope).map (·.id) ↔
    id ∈ input.nativeIds ∨ id ∈ input.crossIds
  cross_inScope : ∀ id ∈ view.cross.map (·.id), id ∉ view.inScope.map (·.id)
  cross_outOfScope : ∀ id ∈ view.cross.map (·.id), id ∉ view.outOfScope.map (·.id)
  inScope_outOfScope : ∀ id ∈ view.inScope.map (·.id), id ∉ view.outOfScope.map (·.id)
  mem_cross : ∀ id, id ∈ view.cross.map (·.id) ↔ id ∈ input.crossIds ∧ id ∉ input.nativeIds
  mem_inScope : ∀ id, id ∈ view.inScope.map (·.id) ↔
    ∃ filter ∈ input.snapshot.filters, filter.id = id ∧ input.snapshot.tabs.includes filter = true
  mem_outOfScope : ∀ id, id ∈ view.outOfScope.map (·.id) ↔ id ∈ input.nativeIds ∧
    ∀ filter ∈ input.snapshot.filters, filter.id = id → input.snapshot.tabs.includes filter = false
  crossFirst : view.row = view.cross ++ view.inScope
  crossOrder : view.cross.map (·.id) = input.crossIds.filter fun id => !input.nativeIds.contains id
  inScopeOrder : view.inScope.map (·.id) = input.inScopeIds
  outOfScopeOrder : view.outOfScope.map (·.id) =
    input.outOfScopeIds.filter fun id => !input.inScopeIds.contains id
  crossKind : ∀ ref ∈ view.cross, ref.kind = .cross
  nativeKind : ∀ ref ∈ view.inScope ++ view.outOfScope, ref.kind = .native
  hidden : ∀ ref ∈ view.hidden, ref ∈ view.row
  resolves : ∀ ref ∈ view.refs, table.keyOf ref.id = some ref.key ∧
    ∃ slot, table.get? ref.key = some slot ∧ slot.item.id = ref.id ∧ slot.item.kind = ref.kind

variable {input : PanelInput} {id : FilterId}

theorem mem_items_split_iff :
    id ∈ (input.split Tabs.split).items.map (·.id) ↔ id ∈ input.nativeIds :=
  Tabs.mem_items_split_iff

theorem listed_items_split (input : PanelInput) (id : FilterId) :
    FilterItem.listed (input.split Tabs.split).items id = input.nativeIds.contains id := by
  rw [Bool.eq_iff_iff, FilterItem.listed_iff, mem_items_split_iff, List.contains_iff_mem]

theorem isNative_split (input : PanelInput) : (input.split Tabs.split).IsNative :=
  Tabs.isNative_split _ _

theorem ids_cross (input : PanelInput) :
    (input.lineup Tabs.split).cross.map (·.id) =
      input.crossIds.filter fun id => !input.nativeIds.contains id := by
  rw [lineup, Lineup.cross_ofSplit input.isNative_split, Lineup.map_id_undisplaced]
  simp only [listed_items_split]
  rfl

theorem ids_natives (input : PanelInput) :
    (input.lineup Tabs.split).natives.map (·.id) = input.inScopeIds := by
  rw [lineup, Lineup.natives_ofSplit input.isNative_split]
  exact Tabs.inScope_split _ _

theorem ids_outOfScope (input : PanelInput) :
    (input.lineup Tabs.split).outOfScope.map (·.id) =
      input.outOfScopeIds.filter fun id => !input.inScopeIds.contains id := by
  rw [lineup, Lineup.map_id_outOfScope]
  have hin : (input.split Tabs.split).inScope.map (·.id) = input.inScopeIds :=
    Tabs.inScope_split _ _
  have hout : (input.split Tabs.split).outOfScope.map (·.id) = input.outOfScopeIds :=
    Tabs.outOfScope_split _ _
  simp only [FilterItem.listed_eq_contains, hin, hout]

theorem mem_inScopeIds_iff :
    id ∈ input.inScopeIds ↔ ∃ filter ∈ input.snapshot.filters,
      filter.id = id ∧ input.snapshot.tabs.includes filter = true := by
  simp only [inScopeIds, List.mem_map, List.mem_filter]
  constructor
  · intro hmem
    obtain ⟨filter, ⟨hfilter, hin⟩, hid⟩ := hmem
    exact ⟨filter, hfilter, hid, hin⟩
  · intro hmem
    obtain ⟨filter, hfilter, hid, hin⟩ := hmem
    exact ⟨filter, ⟨hfilter, hin⟩, hid⟩

theorem mem_outOfScopeIds_iff :
    id ∈ input.outOfScopeIds ∧ id ∉ input.inScopeIds ↔ id ∈ input.nativeIds ∧
      ∀ filter ∈ input.snapshot.filters,
        filter.id = id → input.snapshot.tabs.includes filter = false := by
  rw [mem_inScopeIds_iff]
  simp only [outOfScopeIds, nativeIds, List.mem_map, List.mem_filter]
  constructor
  · intro hmem
    obtain ⟨⟨filter, ⟨hfilter, -⟩, hid⟩, hnone⟩ := hmem
    refine ⟨⟨filter, hfilter, hid⟩, fun other hother hid' => ?_⟩
    rw [← Bool.not_eq_true]
    exact fun hin => hnone ⟨other, hother, hid', hin⟩
  · intro hmem
    obtain ⟨⟨filter, hfilter, hid⟩, hall⟩ := hmem
    refine ⟨⟨filter, ⟨hfilter, by rw [hall filter hfilter hid]; rfl⟩, hid⟩, ?_⟩
    intro hmem
    obtain ⟨other, hother, hid', hin⟩ := hmem
    rw [hall other hother hid'] at hin
    cases hin

end PanelInput

theorem SlotTable.Indexed.mem_entries_iff {table : SlotTable γ} (h : table.Indexed)
    {id : FilterId} :
    id ∈ table.entries.map (·.2.item.id) ↔ (table.keyOf id).isSome := by
  rw [List.mem_map, Option.isSome_iff_exists]
  constructor
  · intro hmem
    obtain ⟨⟨key, slot⟩, hentry, rfl⟩ := hmem
    exact ⟨key, h.keyed (Arena.mem_entries_iff.1 hentry)⟩
  · intro hmem
    obtain ⟨key, hkey⟩ := hmem
    obtain ⟨slot, hslot, hid⟩ := h.resolves hkey
    exact ⟨(key, slot), Arena.mem_entries_iff.2 hslot, hid⟩

namespace Panel

variable [Control γ] {panel : Panel γ} {input : PanelInput}

theorem isSome_keyOf_render_iff (h : panel.slots.Indexed) {id : FilterId} :
    ((panel.render input).panel.slots.keyOf id).isSome ↔
      id ∈ input.nativeIds ∨ id ∈ input.crossIds :=
  (isSome_keyOf_renderWith_iff h).trans (or_congr PanelInput.mem_items_split_iff .rfl)

theorem map_id_slotRefs_render (h : panel.slots.Indexed) {items : List FilterItem}
    (hitems : ∀ item ∈ items, item ∈ (input.lineup Tabs.split).present) :
    ((panel.render input).panel.slots.slotRefs items).map (·.id) = items.map (·.id) :=
  SlotTable.map_id_slotRefs ((holds_renderWith h Tabs.split input).subset hitems)

theorem map_id_cross_render (h : panel.slots.Indexed) (input : PanelInput) :
    (panel.render input).view.cross.map (·.id) =
      input.crossIds.filter fun id => !input.nativeIds.contains id := by
  rw [(panel.composed_render input).cross,
    map_id_slotRefs_render h fun item hitem => Lineup.mem_present_iff_group.2 (.inl hitem),
    input.ids_cross]

theorem map_id_inScope_render (h : panel.slots.Indexed) (input : PanelInput) :
    (panel.render input).view.inScope.map (·.id) = input.inScopeIds := by
  rw [(panel.composed_render input).inScope,
    map_id_slotRefs_render h fun item hitem => Lineup.mem_present_iff_group.2 (.inr (.inl hitem)),
    input.ids_natives]

theorem map_id_outOfScope_render (h : panel.slots.Indexed) (input : PanelInput) :
    (panel.render input).view.outOfScope.map (·.id) =
      input.outOfScopeIds.filter fun id => !input.inScopeIds.contains id := by
  rw [(panel.composed_render input).outOfScope,
    map_id_slotRefs_render h fun item hitem => Lineup.mem_present_iff_group.2 (.inr (.inr hitem)),
    input.ids_outOfScope]

theorem mem_cross_render_iff (h : panel.slots.Indexed) {id : FilterId} :
    id ∈ (panel.render input).view.cross.map (·.id) ↔
      id ∈ input.crossIds ∧ id ∉ input.nativeIds := by
  rw [map_id_cross_render h, List.mem_filter]
  simp

theorem mem_inScope_render_iff (h : panel.slots.Indexed) {id : FilterId} :
    id ∈ (panel.render input).view.inScope.map (·.id) ↔ id ∈ input.inScopeIds := by
  rw [map_id_inScope_render h]

theorem mem_outOfScope_render_iff (h : panel.slots.Indexed) {id : FilterId} :
    id ∈ (panel.render input).view.outOfScope.map (·.id) ↔
      id ∈ input.outOfScopeIds ∧ id ∉ input.inScopeIds := by
  rw [map_id_outOfScope_render h, List.mem_filter]
  simp

theorem row_append_outOfScope_render (panel : Panel γ) (input : PanelInput) :
    (panel.render input).view.row ++ (panel.render input).view.outOfScope =
      (panel.render input).panel.slots.slotRefs (input.lineup Tabs.split).present := by
  rw [(panel.composed_render input).row, (panel.composed_render input).outOfScope,
    ← SlotTable.slotRefs_append]
  rfl

theorem referenced_render_iff (h : panel.slots.Indexed) {id : FilterId} :
    id ∈ ((panel.render input).view.row ++ (panel.render input).view.outOfScope).map (·.id) ↔
      id ∈ input.nativeIds ∨ id ∈ input.crossIds := by
  rw [row_append_outOfScope_render, map_id_slotRefs_render h fun item hitem => hitem,
    mem_present_lineup_iff]
  exact or_congr PanelInput.mem_items_split_iff .rfl

theorem kind_of_mem_cross_render {ref : SlotRef} (href : ref ∈ (panel.render input).view.cross) :
    ref.kind = .cross := by
  rw [(panel.composed_render input).cross] at href
  obtain ⟨item, hitem, -, -, hkind⟩ := SlotTable.mem_slotRefs_iff.1 href
  exact hkind.trans (Lineup.kind_of_mem_cross input.isNative_split hitem)

theorem kind_of_mem_native_render {ref : SlotRef}
    (href : ref ∈ (panel.render input).view.inScope ++ (panel.render input).view.outOfScope) :
    ref.kind = .native := by
  rw [(panel.composed_render input).inScope, (panel.composed_render input).outOfScope,
    ← SlotTable.slotRefs_append] at href
  obtain ⟨item, hitem, -, -, hkind⟩ := SlotTable.mem_slotRefs_iff.1 href
  rcases List.mem_append.1 hitem with hin | hout
  · exact hkind.trans (Lineup.kind_of_mem_natives input.isNative_split hin)
  · exact hkind.trans (Lineup.kind_of_mem_outOfScope input.isNative_split hout)

theorem resolves_of_mem_slotRefs (h : panel.slots.Indexed) {ref : SlotRef}
    (href : ref ∈ (panel.render input).panel.slots.slotRefs (input.lineup Tabs.split).present) :
    (panel.render input).panel.slots.keyOf ref.id = some ref.key ∧
      ∃ slot, (panel.render input).panel.slots.get? ref.key = some slot ∧
        slot.item.id = ref.id ∧ slot.item.kind = ref.kind := by
  obtain ⟨item, hitem, hkey, hid, hkind⟩ := SlotTable.mem_slotRefs_iff.1 href
  have hcontains := mem_present_lineup_iff.1 (List.mem_map_of_mem (f := (·.id)) hitem)
  obtain ⟨key, slot, hkey', hslot, hfirst⟩ := slot_renderWith_of_contains h hcontains
  have hkeys : key = ref.key := Option.some.inj (hkey'.symm.trans hkey)
  subst hkeys
  have hslotId : slot.item.id = item.id := by simpa using List.find?_some hfirst
  have hslotKind : slot.item.kind = item.kind :=
    Lineup.kind_eq_of_mem_present input.isNative_split (List.mem_of_find?_eq_some hfirst) hitem
      hslotId
  exact ⟨by rw [hid, hkey], slot, hslot, hslotId.trans hid.symm, hslotKind.trans hkind.symm⟩

theorem resolves_render (h : panel.slots.Indexed) {ref : SlotRef}
    (href : ref ∈ (panel.render input).view.refs) :
    (panel.render input).panel.slots.keyOf ref.id = some ref.key ∧
      ∃ slot, (panel.render input).panel.slots.get? ref.key = some slot ∧
        slot.item.id = ref.id ∧ slot.item.kind = ref.kind := by
  apply resolves_of_mem_slotRefs h
  rw [← row_append_outOfScope_render]
  simp only [PanelView.refs, List.mem_append] at href
  rcases href with (hrow | hhidden) | hout
  · exact List.mem_append_left _ hrow
  · exact List.mem_append_left _ ((panel.composed_render input).hidden ref hhidden)
  · exact List.mem_append_right _ hout

end Panel

/-- Nothing is lost and nothing is shown in two groups: whatever happened to a panel before, the
view of a pass shows the configured filters and the cross-filters, each in one group. -/
theorem shownBy_render [Control γ] (settings : Settings) (commands : List (PanelCommand γ))
    (input : PanelInput) :
    let rendered := ((Panel.start settings).run commands).render input
    input.ShownBy rendered.panel.slots rendered.view := by
  have h : ((Panel.start (γ := γ) settings).run commands).slots.Indexed :=
    Panel.indexed_run SlotTable.indexed_empty commands
  generalize (Panel.start (γ := γ) settings).run commands = panel at h
  intro rendered
  have hcomposed : Composed (input.lineup Tabs.split) rendered.panel.slots rendered.view :=
    panel.composed_render input
  have hindexed : rendered.panel.slots.Indexed := Panel.indexed_step h (.render Tabs.split input)
  constructor
  case keyed => exact fun _ => Panel.isSome_keyOf_render_iff h
  case held => exact fun _ => hindexed.mem_entries_iff.trans (Panel.isSome_keyOf_render_iff h)
  case referenced => exact fun _ => Panel.referenced_render_iff h
  case cross_inScope =>
    intro id hcross hin
    have hin := PanelInput.mem_inScopeIds_iff.1 ((Panel.mem_inScope_render_iff h).1 hin)
    obtain ⟨filter, hfilter, hid, -⟩ := hin
    exact ((Panel.mem_cross_render_iff h).1 hcross).2 (List.mem_map.2 ⟨filter, hfilter, hid⟩)
  case cross_outOfScope =>
    intro id hcross hout
    have hout := PanelInput.mem_outOfScopeIds_iff.1 ((Panel.mem_outOfScope_render_iff h).1 hout)
    exact ((Panel.mem_cross_render_iff h).1 hcross).2 hout.1
  case inScope_outOfScope =>
    intro id hin hout
    exact ((Panel.mem_outOfScope_render_iff h).1 hout).2 ((Panel.mem_inScope_render_iff h).1 hin)
  case mem_cross => exact fun _ => Panel.mem_cross_render_iff h
  case mem_inScope =>
    exact fun _ => (Panel.mem_inScope_render_iff h).trans PanelInput.mem_inScopeIds_iff
  case mem_outOfScope =>
    exact fun _ => (Panel.mem_outOfScope_render_iff h).trans PanelInput.mem_outOfScopeIds_iff
  case crossFirst =>
    rw [hcomposed.row, hcomposed.cross, hcomposed.inScope, ← SlotTable.slotRefs_append,
      Lineup.cross_append_natives]
  case crossOrder => exact Panel.map_id_cross_render h input
  case inScopeOrder => exact Panel.map_id_inScope_render h input
  case outOfScopeOrder => exact Panel.map_id_outOfScope_render h input
  case crossKind => exact fun _ href => Panel.kind_of_mem_cross_render href
  case nativeKind => exact fun _ href => Panel.kind_of_mem_native_render href
  case hidden => exact hcomposed.hidden
  case resolves => exact fun _ href => Panel.resolves_render h href

end DashboardFilters
