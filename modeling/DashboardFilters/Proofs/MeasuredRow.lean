import DashboardFilters.Proofs.OverflowView

/-!
From a measured row to its view. The fit hides a suffix of what was measured, a pass commits the
report as it is if it measured the row of the pass, and the view takes the hidden entries from the
committed ids. So no place on the way leaves a gap in the row or changes an order, whatever the
lengths are.
-/

namespace DashboardFilters

variable {γ : Type}

namespace RowMetrics

theorem hiddenFrom_suffix (metrics : RowMetrics) (limit position : Binary32)
    (items : List ItemExtent) : metrics.hiddenFrom limit position items <:+ items := by
  induction items generalizing position with
  | nil => exact List.suffix_refl []
  | cons item rest ih =>
      rw [hiddenFrom]
      split
      · exact List.suffix_refl _
      · exact (ih _).trans (List.suffix_cons item rest)

/-- What the fit hides stands at the end of the row, also if lengths are infinite or no numbers. -/
theorem ids_fit_suffix (metrics : RowMetrics) (width : Binary32) (items : List ItemExtent) :
    (metrics.fit width items).ids <:+ items.map (·.id) := by
  rw [fit]
  split
  · exact List.nil_suffix
  · split
    · exact List.nil_suffix
    · exact (metrics.hiddenFrom_suffix _ _ items).map (·.id)

end RowMetrics

theorem Panel.ids_overflowIn_of_pending {panel : Panel γ} {resolve : ScopeResolver}
    {input : PanelInput} {measurement : Measurement} (hmode : input.mode = .horizontal)
    (hpending : panel.overflow.pending = some measurement) (hnodup : measurement.ids.Nodup)
    (hknown : measurement.ids ⊆ (input.lineup resolve).row.map (·.id)) :
    (panel.overflowIn resolve input).ids = measurement.ids := by
  have hcandidate : panel.overflow.candidate = measurement.ids := by
    rw [Overflow.candidate, hpending]
    cases measurement <;> rfl
  have hkept : measurement.ids.filter ((input.lineup resolve).row.map (·.id)).contains =
      measurement.ids :=
    List.filter_eq_self.2 fun id hid => List.contains_iff_mem.2 (hknown hid)
  rw [panel.ids_overflowIn_horizontal resolve input hmode, hcandidate, hkept]
  apply distinctBy_of_nodup
  rwa [List.map_id]

theorem find?_reverse_of_mem {items : List FilterItem} (hitems : (items.map (·.id)).Nodup)
    {item : FilterItem} (hitem : item ∈ items) :
    items.reverse.find? (·.id == item.id) = some item := by
  have hsome : (items.reverse.find? (·.id == item.id)).isSome :=
    List.find?_isSome.2 ⟨item, List.mem_reverse.2 hitem, beq_self_eq_true _⟩
  obtain ⟨found, hfound⟩ := Option.isSome_iff_exists.1 hsome
  have hmem := List.mem_reverse.1 (List.mem_of_find?_eq_some hfound)
  have hid : found.id = item.id := by simpa using List.find?_some hfound
  rw [hfound, List.inj_on_of_nodup_map hitems hmem hitem hid]

theorem pickedItems_map_id {items picked : List FilterItem} (hitems : (items.map (·.id)).Nodup)
    (hpicked : picked ⊆ items) : pickedItems (picked.map (·.id)) items = picked := by
  rw [pickedItems, List.filterMap_map]
  have hfound : ∀ item ∈ picked,
      ((fun id => items.reverse.find? (·.id == id)) ∘ (·.id)) item = some item :=
    fun item hitem => find?_reverse_of_mem hitems (hpicked hitem)
  rw [List.filterMap_congr hfound, List.filterMap_some]

theorem Overflow.filter_isOverflowed {overflow : Overflow} {shown hidden : List FilterItem}
    (hnodup : ((shown ++ hidden).map (·.id)).Nodup)
    (hids : overflow.ids = hidden.map (·.id)) :
    (shown ++ hidden).filter (fun item => !overflow.isOverflowed item.id) = shown ∧
      (shown ++ hidden).filter (fun item => overflow.isOverflowed item.id) = hidden := by
  rw [List.map_append, List.nodup_append] at hnodup
  obtain ⟨-, -, hdisjoint⟩ := hnodup
  have hshown : ∀ item ∈ shown, overflow.isOverflowed item.id = false := by
    intro item hitem
    rw [Overflow.isOverflowed, hids, ← Bool.not_eq_true, List.contains_iff_mem]
    intro hmem
    exact hdisjoint _ (List.mem_map_of_mem hitem) _ hmem rfl
  have hhidden : ∀ item ∈ hidden, overflow.isOverflowed item.id = true := by
    intro item hitem
    rw [Overflow.isOverflowed, hids, List.contains_iff_mem]
    exact List.mem_map_of_mem hitem
  rw [List.filter_append, List.filter_append]
  constructor
  · rw [List.filter_eq_self.2 fun item hitem => by rw [hshown item hitem]; rfl,
      List.filter_eq_nil_iff.2 fun item hitem => by simp [hhidden item hitem], List.append_nil]
  · rw [List.filter_eq_nil_iff.2 fun item hitem => by simp [hshown item hitem],
      List.filter_eq_self.2 hhidden, List.nil_append]

theorem SlotTable.slotRefs_filter_kind (table : SlotTable γ) (items : List FilterItem)
    (kind : FilterKind) :
    (table.slotRefs items).filter (·.kind == kind) =
      table.slotRefs (items.filter (·.kind == kind)) := by
  rw [slotRefs, slotRefs, List.filter_filterMap, List.filterMap_filter]
  apply List.filterMap_congr
  intro item _
  by_cases hkind : item.kind = kind
  · cases hkey : table.keyOf item.id <;> simp [slotRef?, hkey, hkind]
  · cases hkey : table.keyOf item.id <;> simp [slotRef?, hkey, hkind]

/-- The inline entries stand before the hidden ones, these are the ids, and the drop-down shows
them in the order of the row. -/
structure HorizontalView.HidesSuffix (view : HorizontalView) (ids : List FilterId) : Prop where
  row : view.row.filter (!·.overflowed) ++ view.row.filter (·.overflowed) = view.row
  hidden : view.overflowedSlots.map (·.id) = ids
  opens : ids ≠ [] → view.dropdown.isSome
  cross : ∀ dropdown, view.dropdown = some dropdown →
    dropdown.cross = view.overflowedSlots.filter (·.kind == .cross)
  inScope : ∀ dropdown, view.dropdown = some dropdown →
    dropdown.inScope = view.overflowedSlots.filter (·.kind == .native)

namespace Lineup

variable {lineup : Lineup} {overflow : Overflow} {table : SlotTable γ}

theorem filter_row (lineup : Lineup) (overflow : Overflow) (table : SlotTable γ)
    (p : Bool → Bool) :
    (lineup.row.filterMap (lineup.rowEntry? overflow table)).filter
        (fun entry => p entry.overflowed) =
      (lineup.row.filter fun item => p (overflow.isOverflowed item.id)).filterMap
        (lineup.rowEntry? overflow table) := by
  rw [List.filter_filterMap, List.filterMap_filter]
  apply List.filterMap_congr
  intro item _
  unfold rowEntry? SlotTable.slotRef?
  cases table.keyOf item.id <;> cases hp : p (overflow.isOverflowed item.id) <;> simp [hp]

theorem hidesSuffix_horizontalView (snapshot : Snapshot) (labels : TriggerLabels)
    {shown hidden : List FilterItem} (hrow : lineup.row = shown ++ hidden)
    (hnodup : (lineup.row.map (·.id)).Nodup) (hids : overflow.ids = hidden.map (·.id))
    (hholds : table.Holds lineup.row) :
    (lineup.horizontalView snapshot labels overflow table).HidesSuffix overflow.ids := by
  have hsubset : hidden ⊆ lineup.row := hrow ▸ List.subset_append_right shown hidden
  have hperm := lineup.perm_groups
  have hpicked : pickedItems overflow.ids (lineup.natives ++ lineup.cross) = hidden := by
    rw [hids]
    exact pickedItems_map_id ((hperm.map FilterItem.id).nodup_iff.2 hnodup)
      fun item hitem => hperm.mem_iff.2 (hsubset hitem)
  have hparts := Overflow.filter_isOverflowed (hrow ▸ hnodup) hids
  have hinline : (lineup.horizontalView snapshot labels overflow table).row.filter
      (!·.overflowed) = shown.filterMap (lineup.rowEntry? overflow table) := by
    rw [horizontalView, lineup.filter_row overflow table (!·), hrow, hparts.1]
  have hentries : (lineup.horizontalView snapshot labels overflow table).row.filter
      (·.overflowed) = hidden.filterMap (lineup.rowEntry? overflow table) := by
    rw [horizontalView, lineup.filter_row overflow table (·), hrow, hparts.2]
  have hslots : (lineup.horizontalView snapshot labels overflow table).overflowedSlots =
      table.slotRefs hidden := by
    rw [HorizontalView.overflowedSlots, hentries, map_slot_entries]
  constructor
  case row =>
    rw [hinline, hentries, ← List.filterMap_append, ← hrow]
    rfl
  case hidden =>
    rw [hslots, SlotTable.map_id_slotRefs (hholds.subset hsubset), hids]
  case opens =>
    intro hne
    rw [Option.isSome_iff_ne_none]
    intro hnone
    have hempty := (dropdown?_eq_none_iff.1 hnone).1
    rw [Overflow.isEmpty_split_iff] at hempty
    · exact hne hempty
    · intro id hid
      rw [hids] at hid
      obtain ⟨item, hitem, rfl⟩ := List.mem_map.1 hid
      exact List.mem_map_of_mem (hperm.mem_iff.2 (hsubset hitem))
  case cross =>
    intro dropdown hdropdown
    rw [(dropdown?_eq_some hdropdown).1, Overflow.split_eq, hpicked, hslots,
      SlotTable.slotRefs_filter_kind]
    rfl
  case inScope =>
    intro dropdown hdropdown
    rw [(dropdown?_eq_some hdropdown).2, Overflow.split_eq, hpicked, hslots,
      SlotTable.slotRefs_filter_kind]
    congr 1
    apply List.filter_congr
    intro item _
    unfold FilterItem.isCross
    cases item.kind <;> rfl

end Lineup

theorem HorizontalView.HidesSuffix.not_overflowed {view : HorizontalView}
    (h : view.HidesSuffix []) : ∀ entry ∈ view.row, entry.overflowed = false := by
  have hnone : view.row.filter (·.overflowed) = [] := by
    have hslots := List.map_eq_nil_iff.1 h.hidden
    exact List.map_eq_nil_iff.1 hslots
  intro entry hentry
  exact Bool.eq_false_iff.2 (List.filter_eq_nil_iff.1 hnone entry hentry)

/-- If the pending report was measured on the row of a pass, the pass hides what the report names,
and this is an end of the row. -/
theorem measured_row_hides_suffix [Control γ] (settings : Settings)
    (commands : List (PanelCommand γ)) (resolve : ScopeResolver) (input : PanelInput)
    (hmode : input.mode = .horizontal) (metrics : RowMetrics) (width : Binary32)
    (items : List ItemExtent) (hnodup : ((input.lineup resolve).row.map (·.id)).Nodup)
    (hitems : items.map (·.id) = (input.lineup resolve).row.map (·.id))
    (hpending : ((Panel.start settings).run commands).overflow.pending =
      some (metrics.fit width items)) :
    let rendered := ((Panel.start settings).run commands).renderWith resolve input
    rendered.panel.overflow.ids = (metrics.fit width items).ids ∧
      ∃ view, rendered.view = .horizontal view ∧
        view.row.map (·.slot.id) = (input.lineup resolve).row.map (·.id) ∧
          view.HidesSuffix rendered.panel.overflow.ids ∧
            (metrics.fit width items = .unavailable →
              ∀ entry ∈ view.row, entry.overflowed = false) := by
  have h : ((Panel.start (γ := γ) settings).run commands).slots.Indexed :=
    Panel.indexed_run SlotTable.indexed_empty commands
  generalize (Panel.start (γ := γ) settings).run commands = panel at h hpending
  intro rendered
  have hsuffix : (metrics.fit width items).ids <:+ (input.lineup resolve).row.map (·.id) :=
    hitems ▸ metrics.ids_fit_suffix width items
  have hids : rendered.panel.overflow.ids = (metrics.fit width items).ids :=
    Panel.ids_overflowIn_of_pending hmode hpending (hsuffix.sublist.nodup hnodup)
      hsuffix.subset
  -- A suffix of the ids is the ids of a suffix.
  obtain ⟨prior, hprior⟩ := hsuffix
  obtain ⟨shown, hidden, hrow, -, hhidden⟩ := List.map_eq_append_iff.1 hprior.symm
  have hholds : rendered.panel.slots.Holds (input.lineup resolve).row :=
    (Panel.holds_renderWith h resolve input).subset (List.subset_append_left _ _)
  have hview := Panel.view_renderWith_of_horizontal resolve hmode panel
  have hhides := Lineup.hidesSuffix_horizontalView input.snapshot panel.settings.labels hrow hnodup
    (hids.trans hhidden.symm) hholds
  refine ⟨hids, _, hview, Lineup.map_id_row hholds _, hhides, ?_⟩
  intro hunavailable
  rw [hids, hunavailable] at hhides
  exact hhides.not_overflowed

/-- The second and the third of three filters are hidden. -/
theorem measured_row_hides_two :
    let input : PanelInput :=
      { mode := .horizontal
        snapshot := { filters := [{ id := ⟨"a"⟩, name := "A" }, { id := ⟨"b"⟩, name := "B" }] }
        crossFilters :=
          [{ chart := 7, name := "Sales", column := none, value := none, path := [] }] }
    let items : List ItemExtent := [⟨⟨"Sales7"⟩, 60⟩, ⟨⟨"a"⟩, 60⟩, ⟨⟨"b"⟩, 60⟩]
    let metrics : RowMetrics := {}
    let commands : List (PanelCommand ControlRecord) := [.report (metrics.fit 220 items)]
    let rendered := ((Panel.start {}).run commands).renderWith Tabs.split input
    metrics.fit 220 items = .overflowed [⟨"a"⟩, ⟨"b"⟩] ∧
      rendered.panel.overflow.ids = (metrics.fit 220 items).ids ∧
        ∃ view, rendered.view = .horizontal view ∧
          view.row.map (·.slot.id) = (input.lineup Tabs.split).row.map (·.id) ∧
            view.HidesSuffix rendered.panel.overflow.ids ∧
              (metrics.fit 220 items = .unavailable →
                ∀ entry ∈ view.row, entry.overflowed = false) := by
  intro input items metrics commands rendered
  have hfit : metrics.fit 220 items = .overflowed [⟨"a"⟩, ⟨"b"⟩] := by decide +kernel
  have hmode : input.mode = .horizontal := rfl
  have hnodup : ((input.lineup Tabs.split).row.map (·.id)).Nodup := by decide +kernel
  have hitems : items.map (·.id) = (input.lineup Tabs.split).row.map (·.id) := by decide +kernel
  have hpending : ((Panel.start {}).run commands).overflow.pending =
      some (metrics.fit 220 items) := rfl
  clear_value input items metrics commands
  exact ⟨hfit, measured_row_hides_suffix {} commands Tabs.split input hmode metrics 220 items
    hnodup hitems hpending⟩

end DashboardFilters
