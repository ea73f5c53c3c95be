import DashboardFilters.Lineup

namespace DashboardFilters

/-! Which filters stand in which group of a line-up. -/

theorem map_filter_zipIdx {α β : Type} {xs : List α} (p : α → Bool) (f : α → β) (start : Nat) :
    ((xs.zipIdx start).filter fun (x, _) => p x).map (fun (x, _) => f x) = (xs.filter p).map f := by
  induction xs generalizing start with
  | nil => rfl
  | cons x xs ih =>
      rw [List.zipIdx_cons]
      cases hp : p x with
      | true => simp [hp, ih]
      | false => simp [hp, ih]

theorem FilterItem.listed_iff {items : List FilterItem} {id : FilterId} :
    FilterItem.listed items id = true ↔ id ∈ items.map (·.id) := by
  simp [FilterItem.listed]

theorem FilterItem.not_listed_iff {items : List FilterItem} {id : FilterId} :
    (!FilterItem.listed items id) = true ↔ id ∉ items.map (·.id) := by
  rw [← FilterItem.listed_iff, Bool.not_eq_true, Bool.not_eq_true']

theorem FilterItem.listed_eq_contains (items : List FilterItem) (id : FilterId) :
    FilterItem.listed items id = (items.map (·.id)).contains id := by
  rw [Bool.eq_iff_iff, FilterItem.listed_iff, List.contains_iff_mem]

theorem FilterItem.listed_append (first second : List FilterItem) (id : FilterId) :
    FilterItem.listed (first ++ second) id =
      (FilterItem.listed first id || FilterItem.listed second id) :=
  List.any_append

theorem FilterItem.isCross_iff {item : FilterItem} : item.isCross = true ↔ item.kind = .cross :=
  beq_iff_eq

theorem FilterItem.not_isCross_iff {item : FilterItem} :
    item.isCross = false ↔ item.kind = .native := by
  rw [FilterItem.isCross]
  cases item.kind <;> decide

def ScopeSplit.items (split : ScopeSplit) : List FilterItem :=
  split.inScope ++ split.outOfScope

theorem ScopeSplit.listed_reconcile (split : ScopeSplit) (id : FilterId) :
    FilterItem.listed split.reconcile.outOfScope id =
      (FilterItem.listed split.outOfScope id && !FilterItem.listed split.inScope id) := by
  simp only [FilterItem.listed, ScopeSplit.reconcile, List.any_filter]
  rw [Bool.eq_iff_iff]
  simp only [List.any_eq_true, Bool.and_eq_true, beq_iff_eq]
  constructor
  · intro hmem
    obtain ⟨item, hitem, hout, rfl⟩ := hmem
    exact ⟨⟨item, hitem, rfl⟩, hout⟩
  · intro hmem
    obtain ⟨⟨item, hitem, rfl⟩, hout⟩ := hmem
    exact ⟨item, hitem, hout, rfl⟩

namespace Lineup

def numbered (crossFilters : List CrossFilter) : List FilterItem :=
  crossFilters.zipIdx.map fun (filter, order) => filter.toItem order

theorem map_id_numbered (crossFilters : List CrossFilter) :
    (numbered crossFilters).map (·.id) = crossFilters.map (·.id) := by
  have hids : (numbered crossFilters).map (·.id) =
      (crossFilters.zipIdx.map Prod.fst).map (·.id) := by
    rw [numbered, List.map_map, List.map_map]
    rfl
  rw [hids, List.zipIdx_map_fst]

theorem filter_numbered {β : Type} (crossFilters : List CrossFilter) {p : FilterItem → Bool}
    {q : CrossFilter → Bool} {f : FilterItem → β} {g : CrossFilter → β}
    (hp : ∀ filter order, p (filter.toItem order) = q filter)
    (hf : ∀ filter order, f (filter.toItem order) = g filter) :
    ((numbered crossFilters).filter p).map f = (crossFilters.filter q).map g := by
  rw [numbered, List.filter_map, List.map_map]
  simp only [Function.comp_def, hp, hf]
  exact map_filter_zipIdx q g 0

theorem isCross_numbered {crossFilters : List CrossFilter} {item : FilterItem}
    (h : item ∈ numbered crossFilters) : item.isCross = true := by
  obtain ⟨entry, -, rfl⟩ := List.mem_map.1 h
  rfl

/-- The cross-filters that no native filter displaces, on either side. -/
def undisplaced (split : ScopeSplit) (crossFilters : List CrossFilter) : List FilterItem :=
  (numbered crossFilters).filter fun item => !FilterItem.listed split.items item.id

theorem row_ofSplit (split : ScopeSplit) (crossFilters : List CrossFilter) :
    (ofSplit split crossFilters).row = undisplaced split crossFilters ++ split.inScope := by
  have hrow : (ofSplit split crossFilters).row =
      ((numbered crossFilters).filter fun item =>
          !FilterItem.listed split.reconcile.outOfScope item.id).filter
        (fun item => !FilterItem.listed split.inScope item.id) ++ split.inScope := rfl
  rw [hrow, List.filter_filter, undisplaced]
  congr 2
  funext item
  rw [ScopeSplit.listed_reconcile, ScopeSplit.items, FilterItem.listed_append]
  cases FilterItem.listed split.inScope item.id <;>
    cases FilterItem.listed split.outOfScope item.id <;> rfl

theorem outOfScope_ofSplit (split : ScopeSplit) (crossFilters : List CrossFilter) :
    (ofSplit split crossFilters).outOfScope =
      split.outOfScope.filter fun item => !FilterItem.listed split.inScope item.id := rfl

theorem map_id_undisplaced (split : ScopeSplit) (crossFilters : List CrossFilter) :
    (undisplaced split crossFilters).map (·.id) =
      (crossFilters.map (·.id)).filter fun id => !FilterItem.listed split.items id := by
  rw [← map_id_numbered, List.filter_map]
  rfl

theorem map_id_outOfScope (split : ScopeSplit) (crossFilters : List CrossFilter) :
    (ofSplit split crossFilters).outOfScope.map (·.id) =
      (split.outOfScope.map (·.id)).filter fun id => !FilterItem.listed split.inScope id := by
  rw [outOfScope_ofSplit, List.filter_map]
  rfl

theorem mem_undisplaced_iff {split : ScopeSplit} {crossFilters : List CrossFilter}
    {id : FilterId} :
    id ∈ (undisplaced split crossFilters).map (·.id) ↔
      id ∈ crossFilters.map (·.id) ∧ id ∉ split.items.map (·.id) := by
  rw [map_id_undisplaced, List.mem_filter, FilterItem.not_listed_iff]

theorem mem_outOfScope_iff {split : ScopeSplit} {crossFilters : List CrossFilter}
    {id : FilterId} :
    id ∈ (ofSplit split crossFilters).outOfScope.map (·.id) ↔
      id ∈ split.outOfScope.map (·.id) ∧ id ∉ split.inScope.map (·.id) := by
  rw [map_id_outOfScope, List.mem_filter, FilterItem.not_listed_iff]

theorem mem_present_iff {split : ScopeSplit} {crossFilters : List CrossFilter} {id : FilterId} :
    id ∈ (ofSplit split crossFilters).present.map (·.id) ↔
      id ∈ split.items.map (·.id) ∨ id ∈ crossFilters.map (·.id) := by
  rw [present, List.map_append, List.mem_append, row_ofSplit, List.map_append, List.mem_append,
    mem_undisplaced_iff, mem_outOfScope_iff, ScopeSplit.items, List.map_append, List.mem_append]
  by_cases hin : id ∈ split.inScope.map (·.id)
  · simp [hin]
  · by_cases hout : id ∈ split.outOfScope.map (·.id)
    · simp [hin, hout]
    · simp [hin, hout]

end Lineup

def ScopeSplit.IsNative (split : ScopeSplit) : Prop :=
  ∀ item ∈ split.items, item.isCross = false

namespace Tabs

theorem inScope_split (filters : List NativeFilter) (tabs : Tabs) :
    (split filters tabs).inScope.map (·.id) = (filters.filter tabs.includes).map (·.id) := by
  rw [split, List.partition_eq_filter_filter, List.map_map]
  exact map_filter_zipIdx tabs.includes (·.id) 0

theorem filter_inScope_split {β : Type} (filters : List NativeFilter) (tabs : Tabs)
    {p : FilterItem → Bool} {q : NativeFilter → Bool} {f : FilterItem → β} {g : NativeFilter → β}
    (hp : ∀ filter order, p (filter.toItem order) = q filter)
    (hf : ∀ filter order, f (filter.toItem order) = g filter) :
    ((split filters tabs).inScope.filter p).map f =
      (filters.filter fun filter => q filter && tabs.includes filter).map g := by
  rw [split, List.partition_eq_filter_filter, List.filter_map, List.map_map, List.filter_filter]
  simp only [Function.comp_def, hp, hf]
  exact map_filter_zipIdx (fun filter => q filter && tabs.includes filter) g 0

theorem outOfScope_split (filters : List NativeFilter) (tabs : Tabs) :
    (split filters tabs).outOfScope.map (·.id) =
      (filters.filter fun filter => !tabs.includes filter).map (·.id) := by
  rw [split, List.partition_eq_filter_filter, List.map_map]
  exact map_filter_zipIdx (fun filter => !tabs.includes filter) (·.id) 0

theorem isNative_split (filters : List NativeFilter) (tabs : Tabs) :
    (split filters tabs).IsNative := by
  intro item hitem
  rcases List.mem_append.1 hitem with hin | hout
  · obtain ⟨entry, -, rfl⟩ := List.mem_map.1 hin
    rfl
  · obtain ⟨entry, -, rfl⟩ := List.mem_map.1 hout
    rfl

theorem mem_items_split_iff {filters : List NativeFilter} {tabs : Tabs} {id : FilterId} :
    id ∈ (split filters tabs).items.map (·.id) ↔ id ∈ filters.map (·.id) := by
  rw [ScopeSplit.items, List.map_append, List.mem_append, inScope_split, outOfScope_split]
  simp only [List.mem_map, List.mem_filter]
  constructor
  · intro hmem
    rcases hmem with ⟨filter, ⟨hfilter, -⟩, hid⟩ | ⟨filter, ⟨hfilter, -⟩, hid⟩
    · exact ⟨filter, hfilter, hid⟩
    · exact ⟨filter, hfilter, hid⟩
  · intro hmem
    obtain ⟨filter, hfilter, hid⟩ := hmem
    cases hincludes : tabs.includes filter with
    | true => exact .inl ⟨filter, ⟨hfilter, hincludes⟩, hid⟩
    | false => exact .inr ⟨filter, ⟨hfilter, by rw [hincludes]; rfl⟩, hid⟩

theorem outOfScope_split_of_no_section {filters : List NativeFilter} {tabs : Tabs}
    (h : (tabs.hasTabs && !filters.isEmpty) = false) : (split filters tabs).outOfScope = [] := by
  rw [← List.map_eq_nil_iff, outOfScope_split, List.map_eq_nil_iff, List.filter_eq_nil_iff]
  intro filter hfilter
  rcases (Bool.and_eq_false_iff).1 h with htabs | hempty
  · simp [includes, htabs]
  · cases filters with
    | nil => cases hfilter
    | cons => cases hempty

end Tabs

namespace Lineup

variable {split : ScopeSplit} {crossFilters : List CrossFilter}

theorem isCross_undisplaced {item : FilterItem} (h : item ∈ undisplaced split crossFilters) :
    item.isCross = true :=
  isCross_numbered (List.mem_filter.1 h).1

theorem cross_ofSplit (h : split.IsNative) :
    (ofSplit split crossFilters).cross = undisplaced split crossFilters := by
  rw [cross, row_ofSplit, List.takeWhile_append_of_pos fun item hitem => isCross_undisplaced hitem]
  cases hin : split.inScope with
  | nil => simp
  | cons first others =>
      have hfirst : first.isCross = false :=
        h first (List.mem_append_left _ (by rw [hin]; exact List.mem_cons_self))
      simp [hfirst]

theorem natives_ofSplit (h : split.IsNative) :
    (ofSplit split crossFilters).natives = split.inScope := by
  have happend := cross_append_natives (ofSplit split crossFilters)
  rw [cross_ofSplit h, row_ofSplit] at happend
  exact List.append_cancel_left happend

theorem kind_of_mem_cross (h : split.IsNative) {item : FilterItem}
    (hitem : item ∈ (ofSplit split crossFilters).cross) : item.kind = .cross := by
  rw [cross_ofSplit h] at hitem
  exact FilterItem.isCross_iff.1 (isCross_undisplaced hitem)

theorem kind_of_mem_natives (h : split.IsNative) {item : FilterItem}
    (hitem : item ∈ (ofSplit split crossFilters).natives) : item.kind = .native := by
  rw [natives_ofSplit h] at hitem
  exact FilterItem.not_isCross_iff.1 (h item (List.mem_append_left _ hitem))

theorem kind_of_mem_outOfScope (h : split.IsNative) {item : FilterItem}
    (hitem : item ∈ (ofSplit split crossFilters).outOfScope) : item.kind = .native := by
  rw [outOfScope_ofSplit] at hitem
  exact FilterItem.not_isCross_iff.1 (h item (List.mem_append_right _ (List.mem_filter.1 hitem).1))

theorem mem_present_iff_group {lineup : Lineup} {item : FilterItem} :
    item ∈ lineup.present ↔
      item ∈ lineup.cross ∨ item ∈ lineup.natives ∨ item ∈ lineup.outOfScope := by
  rw [present, ← cross_append_natives, List.append_assoc, List.mem_append, List.mem_append]

theorem isCross_of_mem_present (h : split.IsNative) {item : FilterItem}
    (hitem : item ∈ (ofSplit split crossFilters).present) :
    item.isCross = !FilterItem.listed split.items item.id := by
  have hnative : ∀ other ∈ split.items,
      other.isCross = !FilterItem.listed split.items other.id := by
    intro other hother
    rw [h other hother, FilterItem.listed_iff.2 (List.mem_map_of_mem hother)]
    rfl
  rcases mem_present_iff_group.1 hitem with hcross | hin | hout
  · rw [cross_ofSplit h] at hcross
    rw [isCross_undisplaced hcross]
    exact (List.mem_filter.1 hcross).2.symm
  · rw [natives_ofSplit h] at hin
    exact hnative item (List.mem_append_left _ hin)
  · rw [outOfScope_ofSplit] at hout
    exact hnative item (List.mem_append_right _ (List.mem_filter.1 hout).1)

theorem kind_eq_of_mem_present (h : split.IsNative) {item other : FilterItem}
    (hitem : item ∈ (ofSplit split crossFilters).present)
    (hother : other ∈ (ofSplit split crossFilters).present) (hid : item.id = other.id) :
    item.kind = other.kind := by
  have hcross : item.isCross = other.isCross := by
    rw [isCross_of_mem_present h hitem, isCross_of_mem_present h hother, hid]
  cases hkind : other.isCross with
  | true =>
      rw [FilterItem.isCross_iff.1 hkind, FilterItem.isCross_iff.1 (hcross.trans hkind)]
  | false =>
      rw [FilterItem.not_isCross_iff.1 hkind, FilterItem.not_isCross_iff.1 (hcross.trans hkind)]

end Lineup

end DashboardFilters
