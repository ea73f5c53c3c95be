import DashboardFilters.Proofs.LineupContents
import Mathlib.Data.List.Forall2
import Mathlib.Data.List.Nodup

/-!
The two halves of a split by the tabs. Each keeps the order of the filters and every item its
position, so that the halves can be put together again. Neither more active tabs nor a wider scope
moves a filter out of scope.
-/

namespace DashboardFilters

def NativeFilter.numbered (filters : List NativeFilter) : List FilterItem :=
  filters.zipIdx.map fun (filter, order) => filter.toItem order

namespace NativeFilter

theorem map_order_numbered (filters : List NativeFilter) :
    (numbered filters).map (·.order) = List.range filters.length := by
  have horders : (numbered filters).map (·.order) = filters.zipIdx.map Prod.snd := by
    rw [numbered, List.map_map]
    rfl
  rw [horders, List.zipIdx_map_snd, List.range_eq_range']

theorem pairwise_numbered (filters : List NativeFilter) :
    (numbered filters).Pairwise (·.order < ·.order) := by
  have horders : ((numbered filters).map (·.order)).Pairwise (· < ·) := by
    rw [map_order_numbered]
    exact List.pairwise_lt_range
  exact List.pairwise_map.1 horders

theorem mem_numbered_iff {filters : List NativeFilter} {item : FilterItem} :
    item ∈ numbered filters ↔
      ∃ filter, filters[item.order]? = some filter ∧ item = filter.toItem item.order := by
  rw [numbered, List.mem_map]
  constructor
  · rintro ⟨⟨filter, order⟩, hentry, rfl⟩
    exact ⟨filter, List.mk_mem_zipIdx_iff_getElem?.1 hentry, rfl⟩
  · rintro ⟨filter, hfilter, hitem⟩
    exact ⟨(filter, item.order), List.mk_mem_zipIdx_iff_getElem?.2 hfilter, hitem.symm⟩

theorem eq_of_order_eq {filters : List NativeFilter} {item other : FilterItem}
    (hitem : item ∈ numbered filters) (hother : other ∈ numbered filters)
    (horder : item.order = other.order) : item = other := by
  have hnodup : ((numbered filters).map (·.order)).Nodup := by
    rw [map_order_numbered]
    exact List.nodup_range
  exact List.inj_on_of_nodup_map hnodup hitem hother horder

end NativeFilter

open NativeFilter

namespace Tabs

variable {tabs tabs' : Tabs} {filters filters' : List NativeFilter}

theorem inScope_sublist (filters : List NativeFilter) (tabs : Tabs) :
    (split filters tabs).inScope.Sublist (numbered filters) := by
  rw [split, List.partition_eq_filter_filter]
  exact List.filter_sublist.map _

theorem outOfScope_sublist (filters : List NativeFilter) (tabs : Tabs) :
    (split filters tabs).outOfScope.Sublist (numbered filters) := by
  rw [split, List.partition_eq_filter_filter]
  exact List.filter_sublist.map _

theorem perm_halves (filters : List NativeFilter) (tabs : Tabs) :
    ((split filters tabs).inScope ++ (split filters tabs).outOfScope).Perm (numbered filters) := by
  rw [split, List.partition_eq_filter_filter, ← List.map_append]
  exact (List.filter_append_perm _ _).map _

theorem pairwise_of_sublist {items : List FilterItem} (h : items.Sublist (numbered filters)) :
    items.Pairwise fun item other => decide (item.order ≤ other.order) = true := by
  refine ((pairwise_numbered filters).sublist h).imp ?_
  intro item other hlt
  exact decide_eq_true (Nat.le_of_lt hlt)

theorem pairwise_merge_of_sublist {items others : List FilterItem}
    (hitems : items.Sublist (numbered filters)) (hothers : others.Sublist (numbered filters)) :
    (items.merge others fun item other => item.order ≤ other.order).Pairwise
      fun item other => decide (item.order ≤ other.order) = true := by
  apply List.pairwise_merge
  · simpa using fun _ _ _ => Nat.le_trans
  · simpa using fun _ _ => Nat.le_total _ _
  · exact pairwise_of_sublist hitems
  · exact pairwise_of_sublist hothers

theorem merge_halves (filters : List NativeFilter) (tabs : Tabs) :
    (split filters tabs).inScope.merge (split filters tabs).outOfScope
      (fun item other => item.order ≤ other.order) = numbered filters := by
  have hmerged := pairwise_merge_of_sublist (inScope_sublist filters tabs)
    (outOfScope_sublist filters tabs)
  have hperm := (List.merge_perm_append fun item other : FilterItem =>
    decide (item.order ≤ other.order)).trans (perm_halves filters tabs)
  refine hperm.eq_of_pairwise ?_ hmerged (pairwise_of_sublist (.refl _))
  intro item other hitem hother hle hge
  exact eq_of_order_eq (hperm.mem_iff.1 hitem) hother
    (Nat.le_antisymm (of_decide_eq_true hle) (of_decide_eq_true hge))

theorem shows_iff {chart : ChartId} : tabs.shows chart = true ↔
    ∀ parents, tabs.enclosing.get? chart = some parents →
      ∀ tab ∈ parents, tabs.active.contains tab = true := by
  unfold shows
  cases tabs.enclosing.get? chart with
  | none => simp
  | some parents => simp

theorem includes_iff {filter : NativeFilter} : tabs.includes filter = true ↔
    tabs.hasTabs = false ∨ (∃ chart ∈ filter.scope.charts, tabs.shows chart = true) ∨
      ∃ tab ∈ filter.scope.rootPath, tabs.active.contains tab = true := by
  rw [includes, reaches, Bool.or_eq_true, Bool.or_eq_true, List.any_eq_true, List.any_eq_true,
    Bool.not_eq_true']

theorem mem_inScope_iff {item : FilterItem} : item ∈ (split filters tabs).inScope ↔
    ∃ filter, filters[item.order]? = some filter ∧ item = filter.toItem item.order ∧
      tabs.includes filter = true := by
  rw [split, List.partition_eq_filter_filter, List.mem_map]
  constructor
  · rintro ⟨⟨filter, order⟩, hentry, rfl⟩
    obtain ⟨hentry, hincludes⟩ := List.mem_filter.1 hentry
    exact ⟨filter, List.mk_mem_zipIdx_iff_getElem?.1 hentry, rfl, hincludes⟩
  · rintro ⟨filter, hfilter, hitem, hincludes⟩
    exact ⟨(filter, item.order),
      List.mem_filter.2 ⟨List.mk_mem_zipIdx_iff_getElem?.2 hfilter, hincludes⟩, hitem.symm⟩

theorem mem_outOfScope_iff {item : FilterItem} : item ∈ (split filters tabs).outOfScope ↔
    ∃ filter, filters[item.order]? = some filter ∧ item = filter.toItem item.order ∧
      tabs.includes filter = false := by
  rw [split, List.partition_eq_filter_filter, List.mem_map]
  constructor
  · rintro ⟨⟨filter, order⟩, hentry, rfl⟩
    obtain ⟨hentry, hincludes⟩ := List.mem_filter.1 hentry
    exact ⟨filter, List.mk_mem_zipIdx_iff_getElem?.1 hentry, rfl, by simpa using hincludes⟩
  · rintro ⟨filter, hfilter, hitem, hincludes⟩
    refine ⟨(filter, item.order), ?_, hitem.symm⟩
    rw [List.mem_filter]
    exact ⟨List.mk_mem_zipIdx_iff_getElem?.2 hfilter, by simpa using hincludes⟩

theorem shows_mono {active : SortedSet String}
    (hactive : ∀ tab, tabs.active.contains tab = true → active.contains tab = true)
    {chart : ChartId} (h : tabs.shows chart = true) :
    { tabs with active }.shows chart = true := by
  rw [shows_iff] at h ⊢
  intro parents hparents tab htab
  exact hactive tab (h parents hparents tab htab)

theorem includes_mono {active : SortedSet String}
    (hactive : ∀ tab, tabs.active.contains tab = true → active.contains tab = true)
    {filter : NativeFilter} (h : tabs.includes filter = true) :
    { tabs with active }.includes filter = true := by
  rw [includes_iff] at h ⊢
  rcases h with htabs | ⟨chart, hchart, hshows⟩ | ⟨tab, htab, hcontains⟩
  · exact .inl htabs
  · exact .inr (.inl ⟨chart, hchart, shows_mono hactive hshows⟩)
  · exact .inr (.inr ⟨tab, htab, hactive tab hcontains⟩)

end Tabs

/-- The second filter is the first, but for charts and root tabs that its scope has besides. -/
def NativeFilter.Widens (wider filter : NativeFilter) : Prop :=
  wider = { filter with scope := wider.scope } ∧
    filter.scope.charts ⊆ wider.scope.charts ∧ filter.scope.rootPath ⊆ wider.scope.rootPath

namespace Tabs

variable {tabs tabs' : Tabs} {filters filters' : List NativeFilter}

theorem includes_of_widens {wider filter : NativeFilter} (hwidens : wider.Widens filter)
    (h : tabs.includes filter = true) : tabs.includes wider = true := by
  obtain ⟨-, hcharts, hrootPath⟩ := hwidens
  rw [includes_iff] at h ⊢
  rcases h with htabs | ⟨chart, hchart, hshows⟩ | ⟨tab, htab, hcontains⟩
  · exact .inl htabs
  · exact .inr (.inl ⟨chart, hcharts hchart, hshows⟩)
  · exact .inr (.inr ⟨tab, hrootPath htab, hcontains⟩)

theorem map_filter_zipIdx_sublist {p q : NativeFilter → Bool}
    (h : List.Forall₂ (fun filter other => (∀ order, filter.toItem order = other.toItem order) ∧
      (p filter = true → q other = true)) filters filters') (start : Nat) :
    (((filters.zipIdx start).filter fun (filter, _) => p filter).map
        fun (filter, order) => filter.toItem order).Sublist
      (((filters'.zipIdx start).filter fun (filter, _) => q filter).map
        fun (filter, order) => filter.toItem order) := by
  induction h generalizing start with
  | nil => exact .slnil
  | @cons filter other filters filters' hfirst hrest ih =>
      obtain ⟨hitem, himp⟩ := hfirst
      rw [List.zipIdx_cons, List.zipIdx_cons]
      cases hp : p filter with
      | true =>
          simp only [List.filter_cons, hp, himp hp, if_true, List.map_cons, hitem]
          exact (ih (start + 1)).cons_cons _
      | false =>
          cases hq : q other with
          | true =>
              simp only [List.filter_cons, hp, hq, if_true, List.map_cons, Bool.false_eq_true,
                if_false]
              exact (ih (start + 1)).cons _
          | false =>
              simp only [List.filter_cons, hp, hq, Bool.false_eq_true, if_false]
              exact ih (start + 1)

theorem inScope_split_sublist
    (h : List.Forall₂ (fun filter other => (∀ order, filter.toItem order = other.toItem order) ∧
      (tabs.includes filter = true → tabs'.includes other = true)) filters filters') :
    (split filters tabs).inScope.Sublist (split filters' tabs').inScope := by
  rw [split, split, List.partition_eq_filter_filter, List.partition_eq_filter_filter]
  exact map_filter_zipIdx_sublist h 0

theorem inScope_sublist_of_active {active : SortedSet String}
    (hactive : ∀ tab, tabs.active.contains tab = true → active.contains tab = true) :
    (split filters tabs).inScope.Sublist (split filters { tabs with active }).inScope := by
  apply inScope_split_sublist
  rw [List.forall₂_same]
  exact fun filter _ => ⟨fun _ => rfl, includes_mono hactive⟩

theorem inScope_sublist_of_widens (h : List.Forall₂ (fun filter wider => wider.Widens filter)
    filters filters') :
    (split filters tabs).inScope.Sublist (split filters' tabs).inScope := by
  apply inScope_split_sublist
  refine h.imp ?_
  intro filter wider hwidens
  refine ⟨fun order => ?_, includes_of_widens hwidens⟩
  rw [hwidens.1]
  rfl

end Tabs

namespace ScopeSplit

structure Reconciled (split result : ScopeSplit) : Prop where
  inScope_eq : result.inScope = split.inScope
  outOfScope_sublist : result.outOfScope.Sublist split.outOfScope
  mem_outOfScope_iff : ∀ item, item ∈ result.outOfScope ↔
    item ∈ split.outOfScope ∧ item.id ∉ split.inScope.map (·.id)
  disjoint : (result.inScope.map (·.id)).Disjoint (result.outOfScope.map (·.id))
  settled : result.reconcile = result

theorem reconcile_reconcile (split : ScopeSplit) : split.reconcile.reconcile = split.reconcile := by
  simp only [reconcile, List.filter_filter, Bool.and_self]

theorem reconciled_reconcile (split : ScopeSplit) : split.Reconciled split.reconcile where
  inScope_eq := rfl
  outOfScope_sublist := List.filter_sublist
  mem_outOfScope_iff := by
    intro item
    rw [reconcile, List.mem_filter, FilterItem.not_listed_iff]
  disjoint := by
    intro id hin hout
    obtain ⟨item, hitem, rfl⟩ := List.mem_map.1 hout
    exact FilterItem.not_listed_iff.1 (List.mem_filter.1 hitem).2 hin
  settled := reconcile_reconcile split

structure Halves (split : ScopeSplit) (filters : List NativeFilter) (tabs : Tabs) : Prop where
  inScope_sublist : split.inScope.Sublist (numbered filters)
  outOfScope_sublist : split.outOfScope.Sublist (numbered filters)
  mem_inScope_iff : ∀ item, item ∈ split.inScope ↔
    ∃ filter, filters[item.order]? = some filter ∧ item = filter.toItem item.order ∧
      (tabs.hasTabs = false ∨ (∃ chart ∈ filter.scope.charts, ∀ parents,
          tabs.enclosing.get? chart = some parents →
            ∀ tab ∈ parents, tabs.active.contains tab = true) ∨
        ∃ tab ∈ filter.scope.rootPath, tabs.active.contains tab = true)
  mem_outOfScope_iff : ∀ item, item ∈ split.outOfScope ↔
    item ∈ numbered filters ∧ item ∉ split.inScope
  length_eq : split.inScope.length + split.outOfScope.length = filters.length
  merge_eq : split.inScope.merge split.outOfScope (fun item other => item.order ≤ other.order) =
    numbered filters

theorem halves_split (filters : List NativeFilter) (tabs : Tabs) :
    (Tabs.split filters tabs).Halves filters tabs where
  inScope_sublist := Tabs.inScope_sublist filters tabs
  outOfScope_sublist := Tabs.outOfScope_sublist filters tabs
  mem_inScope_iff := by
    intro item
    simp only [Tabs.mem_inScope_iff, Tabs.includes_iff, Tabs.shows_iff]
  mem_outOfScope_iff := by
    intro item
    rw [Tabs.mem_outOfScope_iff, Tabs.mem_inScope_iff, mem_numbered_iff]
    constructor
    · rintro ⟨filter, hfilter, hitem, hincludes⟩
      refine ⟨⟨filter, hfilter, hitem⟩, ?_⟩
      rintro ⟨other, hother, -, hincludes'⟩
      rw [hfilter] at hother
      cases hother
      rw [hincludes] at hincludes'
      cases hincludes'
    · rintro ⟨⟨filter, hfilter, hitem⟩, hnot⟩
      refine ⟨filter, hfilter, hitem, ?_⟩
      rw [← Bool.not_eq_true]
      exact fun hincludes => hnot ⟨filter, hfilter, hitem, hincludes⟩
  length_eq := by
    have hlength := (Tabs.perm_halves filters tabs).length_eq
    rw [List.length_append] at hlength
    rw [hlength, numbered, List.length_map, List.length_zipIdx]
  merge_eq := Tabs.merge_halves filters tabs

end ScopeSplit

/-- The halves of a split are complementary and keep order and positions; more active tabs or wider
scopes take no filter out of scope; and reconciling a split, whatever it came from, leaves no id on
both sides. -/
theorem scope_split (filters : List NativeFilter) (tabs : Tabs) :
    (Tabs.split filters tabs).Halves filters tabs ∧
      (∀ active : SortedSet String,
        (∀ tab, tabs.active.contains tab = true → active.contains tab = true) →
          (Tabs.split filters tabs).inScope.Sublist
            (Tabs.split filters { tabs with active }).inScope) ∧
      (∀ filters' : List NativeFilter,
        List.Forall₂ (fun filter wider => wider.Widens filter) filters filters' →
          (Tabs.split filters tabs).inScope.Sublist (Tabs.split filters' tabs).inScope) ∧
      ∀ split : ScopeSplit, split.Reconciled split.reconcile := by
  refine ⟨ScopeSplit.halves_split filters tabs, ?_, ?_, ?_⟩
  · exact fun active hactive => Tabs.inScope_sublist_of_active hactive
  · exact fun filters' hwidens => Tabs.inScope_sublist_of_widens hwidens
  · exact ScopeSplit.reconciled_reconcile

/-- The inner tab, once it is active, brings the first filter in, and a chart that is on no tab
brings in the second. -/
theorem scope_split_of_nested :
    let filters : List NativeFilter :=
      [{ id := ⟨"a"⟩, name := "A", scope := { charts := [1] } },
        { id := ⟨"b"⟩, name := "B", scope := { rootPath := ["side"] } },
        { id := ⟨"c"⟩, name := "C", scope := { rootPath := ["outer"], charts := [1] } }]
    let filters' : List NativeFilter :=
      [{ id := ⟨"a"⟩, name := "A", scope := { charts := [1] } },
        { id := ⟨"b"⟩, name := "B", scope := { rootPath := ["side"], charts := [2] } },
        { id := ⟨"c"⟩, name := "C", scope := { rootPath := ["outer"], charts := [1] } }]
    let tabs : Tabs :=
      { hasTabs := true
        active := .ofList ["outer"]
        enclosing := .ofList [(1, ["outer", "inner"])] }
    let active : SortedSet String := .ofList ["inner", "outer"]
    (∀ tab, tabs.active.contains tab = true → active.contains tab = true) ∧
      List.Forall₂ (fun filter wider => wider.Widens filter) filters filters' ∧
      (Tabs.split filters tabs).inScope.map (·.order) = [2] ∧
      (Tabs.split filters tabs).inScope.Sublist
        (Tabs.split filters { tabs with active }).inScope ∧
      (Tabs.split filters { tabs with active }).inScope.map (·.order) = [0, 2] ∧
      (Tabs.split filters tabs).inScope.Sublist (Tabs.split filters' tabs).inScope ∧
      (Tabs.split filters' tabs).inScope.map (·.order) = [1, 2] := by
  intro filters filters' tabs active
  have hactive : ∀ tab, tabs.active.contains tab = true → active.contains tab = true := by
    intro tab
    simp only [tabs, active, SortedSet.ofList, SortedMap.ofList, SortedMap.contains, List.map_cons,
      List.map_nil, List.foldl_cons, List.foldl_nil, SortedMap.get?_insert, SortedMap.get?_empty]
    by_cases htab : tab = "outer" <;> simp [htab]
  have hwidens : List.Forall₂ (fun filter wider => NativeFilter.Widens wider filter)
      filters filters' := by
    refine .cons ⟨rfl, ?_, ?_⟩ (.cons ⟨rfl, ?_, ?_⟩ (.cons ⟨rfl, ?_, ?_⟩ .nil)) <;> simp
  obtain ⟨-, hmore, hwider, -⟩ := scope_split filters tabs
  exact ⟨hactive, hwidens, by decide +kernel, hmore active hactive, by decide +kernel,
    hwider filters' hwidens, by decide +kernel⟩

end DashboardFilters
