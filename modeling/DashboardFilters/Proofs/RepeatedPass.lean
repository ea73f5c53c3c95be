import DashboardFilters.Proofs.HighlightRequests
import DashboardFilters.Proofs.PlacementNotices
import DashboardFilters.Proofs.SlotIdentity

/-!
A pass over the input of the pass before. Each stage of a pass leaves its part of the panel as a
second pass over the input would, so that the second one finds nothing to do at any stage.
-/

namespace DashboardFilters

variable {γ : Type}

namespace SlotTable

variable [Control γ] {table : SlotTable γ} {items : List FilterItem}

def HasItem (table : SlotTable γ) (item : FilterItem) : Prop :=
  ∃ key slot, table.keyOf item.id = some key ∧ table.get? key = some slot ∧ slot.item = item

def ShowsAt (table : SlotTable γ) (target : FilterId × Placement) : Prop :=
  ∃ key slot, table.keyOf target.1 = some key ∧ table.get? key = some slot ∧
    slot.placement = some target.2

theorem enroll_of_hasItem {item : FilterItem} (h : table.HasItem item) (allocation : Allocation) :
    enroll (table, allocation) item =
      (table, { allocation with retained := allocation.retained + 1 }) := by
  obtain ⟨key, slot, hkey, hslot, rfl⟩ := h
  have hslots : table.slots.modify key (fun other => { other with item := slot.item }) =
      table.slots := Arena.modify_of_fixed hslot rfl
  simp only [enroll, hkey, hslot, renew, hslots]

theorem foldl_enroll_of_hasItem (h : ∀ item ∈ items, table.HasItem item)
    (allocation : Allocation) : (items.foldl enroll (table, allocation)).1 = table := by
  induction items generalizing allocation with
  | nil => rfl
  | cons item items ih =>
      rw [List.foldl_cons, enroll_of_hasItem (h item List.mem_cons_self)]
      exact ih (fun other hother => h other (List.mem_cons_of_mem _ hother)) _

omit [Control γ] in
theorem releaseOthers_of_listed {ids : List FilterId}
    (h : ∀ id ∈ table.keys.map (·.1), id ∈ ids) : (table.releaseOthers ids).1 = table := by
  have hlisted : ∀ entry ∈ table.keys, ids.contains entry.1 = true :=
    fun entry hentry => List.contains_iff_mem.2 (h _ (List.mem_map_of_mem hentry))
  have hkept : table.keys.filter (fun entry => ids.contains entry.1) = table.keys :=
    List.filter_eq_self.2 hlisted
  have hgone : table.keys.filter (fun entry => !ids.contains entry.1) = [] := by
    rw [List.filter_eq_nil_iff]
    intro entry hentry
    rw [hlisted entry hentry]
    exact Bool.false_ne_true
  rw [releaseOthers, hkept, hgone]
  rfl

theorem allocate_of_hasItem (hitems : ∀ item ∈ distinctBy (·.id) items, table.HasItem item)
    (hlisted : ∀ id ∈ table.keys.map (·.1), id ∈ items.map (·.id)) :
    (table.allocate items).1 = table ∧ (table.allocate items).2.created = [] := by
  constructor
  · rw [allocate_fst, foldl_enroll_of_hasItem hitems]
    exact releaseOthers_of_listed fun id hid => mem_map_distinctBy.2 (hlisted id hid)
  · rw [created_allocate, List.filter_eq_nil_iff]
    intro id hid
    obtain ⟨item, hitem, rfl⟩ := List.mem_map.1 hid
    obtain ⟨key, slot, hkey, -, -⟩ := hitems item hitem
    rw [hkey]
    exact Bool.false_ne_true

theorem placeOne_of_showsAt {target : FilterId × Placement} (h : table.ShowsAt target)
    (events : List PanelEvent) : placeOne (table, events) target = (table, events) := by
  obtain ⟨key, slot, hkey, hslot, hplacement⟩ := h
  exact placeOne_of_there hkey hslot hplacement events

theorem foldl_placeOne_of_showsAt {targets : List (FilterId × Placement)}
    (h : ∀ target ∈ targets, table.ShowsAt target) (events : List PanelEvent) :
    targets.foldl placeOne (table, events) = (table, events) := by
  induction targets with
  | nil => rfl
  | cons target targets ih =>
      rw [List.foldl_cons, placeOne_of_showsAt (h target List.mem_cons_self)]
      exact ih fun other hother => h other (List.mem_cons_of_mem _ hother)

end SlotTable

namespace Overflow

variable {overflow : Overflow} {known : List FilterId}

theorem update_ids (overflow : Overflow) : overflow.update overflow.ids = (overflow, none) := by
  simp [update, Property.changes, ids]

theorem commit_idle (hpending : overflow.pending = none) (hnodup : overflow.ids.Nodup)
    (hknown : ∀ id ∈ overflow.ids, id ∈ known) :
    overflow.commit known = { overflow, changed := false, notice := none } := by
  have htaken : { overflow with pending := none } = overflow := by
    rw [← hpending]
  cases hmode : overflow.mode with
  | vertical => rw [commit_vertical hmode, htaken]
  | horizontal =>
      have hnext : distinctBy id (overflow.candidate.filter known.contains) = overflow.ids := by
        have hkept : overflow.ids.filter known.contains = overflow.ids :=
          List.filter_eq_self.2 fun id hid => List.contains_iff_mem.2 (hknown id hid)
        rw [candidate, hpending]
        show distinctBy id (overflow.ids.filter known.contains) = overflow.ids
        rw [hkept, distinctBy_of_nodup]
        rw [List.map_id]
        exact hnodup
      rw [commit_horizontal hmode, htaken, hnext, update_ids]
      rfl

end Overflow

theorem HighlightLog.observe_again (log : HighlightLog) (highlight : Highlight)
    (overflowed other : List FilterId) :
    (log.observe highlight overflowed).1.observe highlight other =
      ((log.observe highlight overflowed).1, none) := by
  cases hid : highlight.id with
  | none => rw [observe_of_none hid, observe_of_none hid]
  | some id =>
      cases hnew : log.isNew highlight.version with
      | true =>
          rw [observe_of_new hid hnew]
          apply observe_of_old
          simp [isNew]
      | false => rw [observe_of_old hnew, observe_of_old hnew]

namespace Panel

/-- Each part of the panel is as a pass over the input would leave it. -/
structure AtRest (panel : Panel γ) (resolve : ScopeResolver) (input : PanelInput) : Prop where
  items : ∀ item ∈ distinctBy (·.id) (input.lineup resolve).present, panel.slots.HasItem item
  listed : ∀ id ∈ panel.slots.keys.map (·.1), id ∈ (input.lineup resolve).present.map (·.id)
  places : ∀ target ∈ (input.lineup resolve).placements input.mode panel.overflow,
    panel.slots.ShowsAt target
  mode : panel.overflow.mode = input.mode
  nodup : panel.overflow.ids.Nodup
  known : ∀ id ∈ panel.overflow.ids, id ∈ (input.lineup resolve).row.map (·.id)
  answered : panel.highlights.observe input.highlight panel.overflow.ids = (panel.highlights, none)

namespace AtRest

variable {panel : Panel γ} {resolve : ScopeResolver} {input : PanelInput}

theorem setMode (h : panel.AtRest resolve input) :
    panel.overflow.setMode input.mode =
      { overflow := panel.overflow, changed := false, notice := none } :=
  Overflow.setMode_same h.mode

theorem commit (h : panel.AtRest resolve input) (hpending : panel.overflow.pending = none) :
    panel.overflow.commit ((input.lineup resolve).row.map (·.id)) =
      { overflow := panel.overflow, changed := false, notice := none } :=
  Overflow.commit_idle hpending h.nodup h.known

theorem overflowIn (h : panel.AtRest resolve input) (hpending : panel.overflow.pending = none) :
    panel.overflowIn resolve input = panel.overflow := by
  rw [Panel.overflowIn, h.setMode, h.commit hpending]

theorem announcements (h : panel.AtRest resolve input) (hpending : panel.overflow.pending = none) :
    panel.announcements resolve input = [] := by
  simp only [Panel.announcements, h.overflowIn hpending, h.setMode, h.commit hpending, h.answered]
  rfl

variable [Control γ]

theorem allocated (h : panel.AtRest resolve input) :
    panel.allocated resolve input = panel.slots :=
  (SlotTable.allocate_of_hasItem h.items h.listed).1

theorem clearedIn (h : panel.AtRest resolve input) (hclear : input.clearAll = []) :
    panel.clearedIn resolve input = (panel.slots, []) := by
  rw [Panel.clearedIn, hclear, h.allocated]
  rfl

theorem placedIn (h : panel.AtRest resolve input) (hclear : input.clearAll = [])
    (hpending : panel.overflow.pending = none) :
    panel.placedIn resolve input = (panel.slots, []) := by
  rw [Panel.placedIn, h.clearedIn hclear, h.overflowIn hpending]
  exact SlotTable.foldl_placeOne_of_showsAt h.places []

theorem renderWith (h : panel.AtRest resolve input) (hclear : input.clearAll = [])
    (hpending : panel.overflow.pending = none) :
    (panel.renderWith resolve input).panel = panel ∧
      (panel.renderWith resolve input).events = [] := by
  constructor
  · have hpanel : (panel.renderWith resolve input).panel =
        { panel with
          slots := (panel.placedIn resolve input).1
          overflow := panel.overflowIn resolve input
          highlights := (panel.highlights.observe input.highlight
            (panel.overflowIn resolve input).ids).1 } := rfl
    rw [hpanel, h.placedIn hclear hpending, h.overflowIn hpending, h.answered]
  · rw [events_renderWith, h.announcements hpending, h.clearedIn hclear,
      h.placedIn hclear hpending, (SlotTable.allocate_of_hasItem h.items h.listed).2]
    rfl

end AtRest

variable [Control γ] {panel : Panel γ} {resolve : ScopeResolver} {input : PanelInput}

theorem hasItem_renderWith (h : panel.slots.Indexed) :
    ∀ item ∈ distinctBy (·.id) (input.lineup resolve).present,
      (panel.renderWith resolve input).panel.slots.HasItem item := by
  intro item hitem
  have hpresent := (distinctBy_sublist _ _).subset hitem
  obtain ⟨key, slot, hkey, hslot, hfirst⟩ := slot_renderWith_of_contains h
    (mem_present_lineup_iff.1 (List.mem_map_of_mem (f := (·.id)) hpresent))
  refine ⟨key, slot, hkey, hslot, ?_⟩
  rw [← find?_distinctBy] at hfirst
  have hid : slot.item.id = item.id := by simpa using List.find?_some hfirst
  exact List.inj_on_of_nodup_map (nodup_map_distinctBy _ _) (List.mem_of_find?_eq_some hfirst)
    hitem hid

theorem listed_renderWith (h : panel.slots.Indexed) :
    ∀ id ∈ (panel.renderWith resolve input).panel.slots.keys.map (·.1),
      id ∈ (input.lineup resolve).present.map (·.id) := by
  intro id hid
  rw [mem_present_lineup_iff, ← isSome_keyOf_renderWith_iff h, Option.isSome_iff_ne_none]
  exact fun hnone => SlotTable.keyOf_eq_none_iff.1 hnone hid

theorem showsAt_renderWith (h : panel.slots.Indexed) :
    ∀ target ∈ (input.lineup resolve).placements input.mode
        (panel.renderWith resolve input).panel.overflow,
      (panel.renderWith resolve input).panel.slots.ShowsAt target := by
  intro target htarget
  have hcontains : input.Contains resolve target.1 :=
    mem_placements_iff.1 (List.mem_map_of_mem htarget)
  obtain ⟨key, slot, hkey, hslot, -⟩ := slot_renderWith_of_contains h hcontains
  refine ⟨key, slot, hkey, hslot, ?_⟩
  rw [placement_renderWith h hkey hslot, Lineup.snd_of_mem_placements htarget]
  rfl

theorem atRest_renderWith (settings : Settings) (past : List (PanelCommand γ))
    (resolve : ScopeResolver) (input : PanelInput) :
    (((start settings).run past).renderWith resolve input).panel.AtRest resolve input := by
  have h : ((start (γ := γ) settings).run past).slots.Indexed :=
    indexed_run SlotTable.indexed_empty past
  have hempty : input.mode = .vertical →
      (((start settings).run past).overflowIn resolve input).ids = [] :=
    ids_overflowIn_of_vertical settings past resolve
  constructor
  case items => exact hasItem_renderWith h
  case listed => exact listed_renderWith h
  case places => exact showsAt_renderWith h
  case mode => exact mode_overflowIn _ resolve input
  case nodup =>
    rw [overflow_renderWith]
    cases hmode : input.mode with
    | vertical =>
        rw [hempty hmode]
        exact List.nodup_nil
    | horizontal => exact nodup_ids_overflowIn _ resolve input hmode
  case known =>
    intro id hid
    rw [overflow_renderWith] at hid
    cases hmode : input.mode with
    | vertical =>
        rw [hempty hmode] at hid
        cases hid
    | horizontal => exact mem_row_of_mem_overflowIn _ resolve input hmode hid
  case answered => exact HighlightLog.observe_again _ _ _ _

theorem view_renderWith_congr {other : Panel γ} (hsettings : panel.settings = other.settings)
    (hpanel : (panel.renderWith resolve input).panel = (other.renderWith resolve input).panel) :
    (panel.renderWith resolve input).view = (other.renderWith resolve input).view := by
  cases hmode : input.mode with
  | vertical =>
      rw [view_renderWith_of_vertical resolve hmode, view_renderWith_of_vertical resolve hmode,
        hpanel]
  | horizontal =>
      rw [view_renderWith_of_horizontal resolve hmode, view_renderWith_of_horizontal resolve hmode,
        hpanel, hsettings]

end Panel

open Panel in
/-- Passes can be repeated: a second pass over the same input, with nothing to clear and nothing
reported since the first, gives the same view and leaves the panel as it is, and neither the host
nor a control is told anything. -/
theorem renderWith_again [Control γ] (settings : Settings) (past : List (PanelCommand γ))
    (resolve : ScopeResolver) (input : PanelInput) (hclear : input.clearAll = [])
    (hpending : (((start settings).run past).renderWith resolve input).panel.overflow.pending =
      none) :
    let first := ((start settings).run past).renderWith resolve input
    let again := first.panel.renderWith resolve input
    again.view = first.view ∧ again.panel = first.panel ∧ again.events = [] := by
  intro first again
  have hrest : first.panel.AtRest resolve input := atRest_renderWith settings past resolve input
  obtain ⟨hpanel, hevents⟩ := hrest.renderWith hclear hpending
  exact ⟨view_renderWith_congr rfl hpanel, hpanel, hevents⟩

/-- An id that is configured twice and one that the row lacks are reported, a listener hears of the
change, and the first pass opens the drop-down. -/
theorem renderWith_again_of_report :
    let past : List (PanelCommand ControlRecord) :=
      [.render Tabs.split (.ofIds .vertical [⟨"b"⟩, ⟨"c"⟩]), .listen { tag := "bar" },
        .report (.overflowed [⟨"b"⟩, ⟨"d"⟩, ⟨"b"⟩])]
    let input : PanelInput :=
      { PanelInput.ofIds .horizontal [⟨"a"⟩, ⟨"b"⟩, ⟨"b"⟩] with highlight := { id := some ⟨"b"⟩ } }
    let first := ((Panel.start {}).run past).renderWith Tabs.split input
    let again := first.panel.renderWith Tabs.split input
    input.clearAll = [] ∧ first.panel.overflow.pending = none ∧
      again.view = first.view ∧ again.panel = first.panel ∧ again.events = [] := by
  intro past input first again
  have hclear : input.clearAll = [] := rfl
  have hpending : first.panel.overflow.pending = none := by decide
  clear_value past input
  exact ⟨hclear, hpending, renderWith_again {} past Tabs.split input hclear hpending⟩

end DashboardFilters
