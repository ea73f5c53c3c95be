import DashboardFilters.Proofs.ViewContents
import DashboardFilters.Slots.Recorder
import Mathlib.Data.List.Nodup
import Mathlib.Logic.Function.Iterate

/-!
Clear-all requests. A pass clears the control of every listed filter that it contains, as often as
the list has the filter. The controls apart, it leaves everything as it would without requests.
-/

namespace DashboardFilters

variable {γ : Type}

namespace Arena

variable {α β : Type} {f : α → β}

def Cell.map (f : α → β) (cell : Cell α) : Cell β :=
  { generation := cell.generation, content := cell.content.map f }

theorem ListsVacant.map {freed : List Nat} {cells : List (Cell α)} (h : ListsVacant freed cells)
    (f : α → β) : ListsVacant freed (cells.map (Cell.map f)) where
  nodup := h.nodup
  mem_iff p := by
    rw [h.mem_iff p, List.getElem?_map, Option.map_map]
    simp [Function.comp_def, Cell.map]

def map (f : α → β) (a : Arena α) : Arena β :=
  { cells := a.cells.map (Cell.map f)
    freed := a.freed
    listsVacant := a.listsVacant.map f }

theorem get?_map (f : α → β) (a : Arena α) (k : Key) : (a.map f).get? k = (a.get? k).map f := by
  simp only [get?, map, List.getElem?_map]
  cases a.cells[k.position]? with
  | none => rfl
  | some cell =>
      simp only [Option.map_some, Cell.map]
      split <;> rfl

theorem Cell.map_modify {change : α → α} {change' : β → β}
    (h : ∀ value, f (change value) = change' (f value)) (generation : Nat) (cell : Cell α) :
    (cell.modify generation change).map f = (cell.map f).modify generation change' := by
  have hcontent : (cell.content.map change).map f = (cell.content.map f).map change' := by
    rw [Option.map_map, Option.map_map]
    congr 1
    funext value
    exact h value
  by_cases hg : cell.generation = generation
  · simp [Cell.modify, Cell.map, hg, ← hcontent]
  · simp [Cell.modify, Cell.map, hg]

theorem map_modify {change : α → α} {change' : β → β}
    (h : ∀ value, f (change value) = change' (f value)) (a : Arena α) (k : Key) :
    (a.modify k change).map f = (a.map f).modify k change' := by
  have hcells : (a.cells.modify k.position (Cell.modify k.generation change)).map (Cell.map f) =
      (a.cells.map (Cell.map f)).modify k.position (Cell.modify k.generation change') := by
    apply List.ext_getElem?
    intro position
    rw [List.getElem?_map, List.getElem?_modify, List.getElem?_modify, List.getElem?_map]
    by_cases hp : k.position = position
    · cases a.cells[position]? with
      | none => simp
      | some cell => simp [hp, Cell.map_modify h]
    · simp [hp]
  simp only [map, modify, hcells]

theorem modify_id (a : Arena α) (k : Key) : a.modify k id = a := by
  have hcell : Cell.modify (α := α) k.generation id = id := by
    funext cell
    unfold Cell.modify
    split <;> simp
  have hcells : a.cells.modify k.position (Cell.modify k.generation id) = a.cells := by
    rw [hcell, List.modify_id]
  obtain ⟨cells, freed, hvacant⟩ := a
  simp only [modify, hcells]

end Arena

/-! Slots without their controls. Clearing does not touch them, and placing goes by nothing else. -/

def Slot.bare (slot : Slot γ) : Slot Unit :=
  { item := slot.item, control := (), placement := slot.placement }

instance : Control Unit where
  create _ _ := ()
  setPlacement _ _ := ()
  clear _ := ()

namespace SlotTable

def bare (table : SlotTable γ) : SlotTable Unit :=
  { slots := table.slots.map Slot.bare, keys := table.keys, created := table.created }

theorem get?_bare (table : SlotTable γ) (key : SlotKey) :
    table.bare.get? key = (table.get? key).map Slot.bare :=
  Arena.get?_map _ _ _

theorem bare_modifySlot {f : Slot γ → Slot γ} {g : Slot Unit → Slot Unit}
    (h : ∀ slot, (f slot).bare = g slot.bare) (table : SlotTable γ) (key : SlotKey) :
    (table.modifySlot key f).bare = table.bare.modifySlot key g := by
  simp only [bare, modifySlot, Arena.map_modify h]

theorem bare_modifyControl (table : SlotTable γ) (key : SlotKey) (change : γ → γ) :
    (table.modifyControl key change).bare = table.bare := by
  have hsame : ∀ slot : Slot γ,
      Slot.bare { slot with control := change slot.control } = id slot.bare := fun _ => rfl
  have hmodify := table.bare_modifySlot hsame key
  rw [modifySlot, modifySlot, Arena.modify_id] at hmodify
  exact hmodify

variable [Control γ]

theorem bare_clearOne (state : SlotTable γ × List PanelEvent) (id : FilterId) :
    (clearOne state id).1.bare = state.1.bare := by
  obtain ⟨table, events⟩ := state
  cases hkey : table.keyOf id with
  | none => rw [clearOne_of_absent hkey]
  | some key =>
      simp only [clearOne, hkey]
      split
      · rfl
      · exact table.bare_modifyControl key Control.clear

theorem bare_foldl_clearOne (ids : List FilterId) (state : SlotTable γ × List PanelEvent) :
    (ids.foldl clearOne state).1.bare = state.1.bare := by
  induction ids generalizing state with
  | nil => rfl
  | cons id ids ih => rw [List.foldl_cons, ih, bare_clearOne]

theorem place_bare (table : SlotTable γ) (key : SlotKey) (placement : Placement) :
    table.bare.place key placement =
      ((table.place key placement).1.bare, (table.place key placement).2) := by
  have hbare := table.get?_bare key
  cases hslot : table.get? key with
  | none =>
      rw [hslot] at hbare
      rw [place_of_vacant hslot, place_of_vacant hbare]
  | some slot =>
      rw [hslot, Option.map_some] at hbare
      by_cases hthere : slot.placement = some placement
      · rw [place_of_there hslot hthere, place_of_there hbare hthere]
      · have hsame : ∀ slot : Slot γ,
            (slot.shownAt placement).bare = slot.bare.shownAt placement := fun _ => rfl
        rw [place_of_elsewhere hslot hthere, place_of_elsewhere hbare hthere,
          bare_modifySlot hsame]

theorem placeOne_bare (table : SlotTable γ) (events : List PanelEvent)
    (target : FilterId × Placement) :
    placeOne (table.bare, events) target =
      ((placeOne (table, events) target).1.bare, (placeOne (table, events) target).2) := by
  have hkeyOf : table.bare.keyOf target.1 = table.keyOf target.1 := rfl
  cases hkey : table.keyOf target.1 with
  | none => simp only [placeOne, hkeyOf, hkey]
  | some key => simp only [placeOne, hkeyOf, hkey, place_bare]

theorem foldl_placeOne_bare (targets : List (FilterId × Placement)) (table : SlotTable γ)
    (events : List PanelEvent) :
    targets.foldl placeOne (table.bare, events) =
      ((targets.foldl placeOne (table, events)).1.bare,
        (targets.foldl placeOne (table, events)).2) := by
  induction targets generalizing table events with
  | nil => rfl
  | cons target targets ih =>
      rw [List.foldl_cons, List.foldl_cons, placeOne_bare]
      exact ih _ _

end SlotTable

def PanelEvent.cleared? : PanelEvent → Option FilterId
  | .cleared id => some id
  | _ => none

def PanelEvent.completed? : PanelEvent → Option FilterId
  | .clearCompleted id => some id
  | _ => none

namespace PanelEvent

variable {event : PanelEvent}

theorem cleared?_of_group (h : event.group ≠ .clearing) : event.cleared? = none := by
  cases event with
  | cleared => exact absurd rfl h
  | created | placed | clearCompleted | overflowChanged | openRequested | selected => rfl

theorem completed?_of_group (h : event.group ≠ .clearing) : event.completed? = none := by
  cases event with
  | clearCompleted => exact absurd rfl h
  | created | placed | cleared | overflowChanged | openRequested | selected => rfl

end PanelEvent

def clearings (ids : List FilterId) : List PanelEvent :=
  ids.flatMap fun id => [.cleared id, .clearCompleted id]

theorem clearings_cons (id : FilterId) (ids : List FilterId) :
    clearings (id :: ids) = [.cleared id, .clearCompleted id] ++ clearings ids :=
  List.flatMap_cons

theorem filterMap_cleared?_clearings (ids : List FilterId) :
    (clearings ids).filterMap PanelEvent.cleared? = ids := by
  induction ids with
  | nil => rfl
  | cons id ids ih =>
      rw [clearings_cons, List.filterMap_append, ih]
      rfl

theorem filterMap_completed?_clearings (ids : List FilterId) :
    (clearings ids).filterMap PanelEvent.completed? = ids := by
  induction ids with
  | nil => rfl
  | cons id ids ih =>
      rw [clearings_cons, List.filterMap_append, ih]
      rfl

section Passes

variable [Control γ]

open PanelRecord

theorem after_clearings (ids : List FilterId) (slot : Slot γ) (id : FilterId) (key : SlotKey) :
    slot.after id key ((clearings ids).map .told) =
      { slot with control := Control.clear^[ids.count id] slot.control } := by
  induction ids generalizing slot with
  | nil => rfl
  | cons other ids ih =>
      rw [clearings_cons, List.map_append, Slot.after_append, ih, List.count_cons]
      by_cases hid : other = id
      · simp [hid]
      · simp [hid]

namespace SlotTable

theorem keyOf_clearOne (state : SlotTable γ × List PanelEvent) (id other : FilterId) :
    (clearOne state id).1.keyOf other = state.1.keyOf other :=
  congrArg (·.keyOf other) (bare_clearOne state id)

theorem events_foldl_clearOne {table : SlotTable γ} (h : table.Indexed) (ids : List FilterId)
    (events : List PanelEvent) :
    (ids.foldl clearOne (table, events)).2 =
      events ++ clearings (ids.filter fun id => (table.keyOf id).isSome) := by
  induction ids generalizing table events with
  | nil => exact (List.append_nil _).symm
  | cons id ids ih =>
      obtain ⟨further, -, htouched⟩ := touched_clearOne h events id
      rw [List.foldl_cons, ih (htouched.indexed h)]
      simp only [keyOf_clearOne]
      cases hkey : table.keyOf id with
      | none => simp [clearOne_of_absent hkey, hkey]
      | some key => simp [h.clearOne_of_keyOf hkey, hkey, clearings_cons]

end SlotTable

namespace PanelInput

/-- The listed filters that the pass contains, as often as they are listed. -/
def requests (input : PanelInput) (resolve : ScopeResolver) : List FilterId :=
  input.clearAll.filter fun id => decide (input.Contains resolve id)

def withoutRequests (input : PanelInput) : PanelInput :=
  { input with clearAll := [] }

end PanelInput

namespace Panel

variable {panel : Panel γ} {resolve : ScopeResolver} {input : PanelInput}

theorem isSome_keyOf_allocated_iff (h : panel.slots.Indexed) {id : FilterId} :
    ((panel.allocated resolve input).keyOf id).isSome ↔ input.Contains resolve id := by
  rw [← (touched_renderWith h resolve input).keyOf, isSome_keyOf_renderWith_iff h]

theorem eventsOf_clearing (h : panel.slots.Indexed) :
    panel.eventsOf resolve input .clearing = clearings (input.requests resolve) := by
  have hevents : (panel.clearedIn resolve input).2 = _ :=
    SlotTable.events_foldl_clearOne (panel.allocated_spec h resolve input).indexed input.clearAll []
  rw [eventsOf, hevents, List.nil_append, PanelInput.requests]
  congr 1
  apply List.filter_congr
  intro id _
  rw [Bool.eq_iff_iff, isSome_keyOf_allocated_iff h, decide_eq_true_iff]

theorem bare_clearedIn (panel : Panel γ) (resolve : ScopeResolver) (input : PanelInput) :
    (panel.clearedIn resolve input).1.bare = (panel.allocated resolve input).bare :=
  SlotTable.bare_foldl_clearOne _ _

/-- The placings depend on what the slots are without their controls. -/
theorem placedIn_bare (panel : Panel γ) (resolve : ScopeResolver) (input : PanelInput) :
    ((panel.placedIn resolve input).1.bare, (panel.placedIn resolve input).2) =
      ((input.lineup resolve).placements input.mode (panel.overflowIn resolve input)).foldl
        SlotTable.placeOne ((panel.allocated resolve input).bare, []) := by
  rw [← bare_clearedIn, SlotTable.foldl_placeOne_bare]
  rfl

theorem placedIn_withoutRequests (panel : Panel γ) (resolve : ScopeResolver) (input : PanelInput) :
    (panel.placedIn resolve input.withoutRequests).1.bare = (panel.placedIn resolve input).1.bare ∧
      (panel.placedIn resolve input.withoutRequests).2 = (panel.placedIn resolve input).2 := by
  have hplaced := (panel.placedIn_bare resolve input.withoutRequests).trans
    (panel.placedIn_bare resolve input).symm
  exact Prod.mk.inj hplaced

theorem events_withoutRequests (h : panel.slots.Indexed) (resolve : ScopeResolver)
    (input : PanelInput) :
    (panel.renderWith resolve input).events =
        panel.eventsOf resolve input .creation ++ (panel.eventsOf resolve input .announcement ++
          (clearings (input.requests resolve) ++ panel.eventsOf resolve input .placing)) ∧
      (panel.renderWith resolve input.withoutRequests).events =
        panel.eventsOf resolve input .creation ++ (panel.eventsOf resolve input .announcement ++
          panel.eventsOf resolve input .placing) := by
  constructor
  · rw [← eventsOf_clearing h]
    exact panel.events_renderWith resolve input
  · rw [events_renderWith, (panel.placedIn_withoutRequests resolve input).2]
    rfl

theorem view_withoutRequests (panel : Panel γ) (resolve : ScopeResolver) (input : PanelInput) :
    (panel.renderWith resolve input).view =
      (panel.renderWith resolve input.withoutRequests).view := by
  have hbare := (panel.placedIn_withoutRequests resolve input).1
  cases hmode : input.mode with
  | vertical =>
      have hmode' : input.withoutRequests.mode = .vertical := hmode
      rw [view_renderWith_of_vertical resolve hmode, view_renderWith_of_vertical resolve hmode']
      show PanelView.vertical ((input.lineup resolve).verticalView input.snapshot
        (panel.placedIn resolve input).1.bare) = _
      rw [← hbare]
      rfl
  | horizontal =>
      have hmode' : input.withoutRequests.mode = .horizontal := hmode
      rw [view_renderWith_of_horizontal resolve hmode,
        view_renderWith_of_horizontal resolve hmode']
      show PanelView.horizontal ((input.lineup resolve).horizontalView input.snapshot
        panel.settings.labels (panel.overflowIn resolve input)
        (panel.placedIn resolve input).1.bare) = _
      rw [← hbare]
      rfl

theorem slot_withoutRequests (h : panel.slots.Indexed) {id : FilterId} {key : SlotKey}
    {slot : Slot γ} (hkey : (panel.allocated resolve input).keyOf id = some key)
    (hslot : (panel.allocated resolve input).get? key = some slot) :
    let told := (panel.renderWith resolve input.withoutRequests).events.map PanelRecord.told
    (panel.renderWith resolve input.withoutRequests).panel.slots.get? key =
        some (slot.after id key told) ∧
      (panel.renderWith resolve input).panel.slots.get? key =
        some ({ slot with
          control := Control.clear^[(input.requests resolve).count id] slot.control }.after
            id key told) := by
  intro told
  have hplain := (touched_renderWith h resolve input.withoutRequests).slot hkey hslot
  have hasked := (touched_renderWith h resolve input).slot hkey hslot
  obtain ⟨hevents, hevents'⟩ := events_withoutRequests h resolve input
  have hunreached : ∀ (slot : Slot γ) (group : EventGroup), group ≠ .clearing → group ≠ .placing →
      slot.after id key ((panel.eventsOf resolve input group).map .told) = slot :=
    fun slot group hclearing hplacing =>
      Slot.after_of_unreached (unreached_of_mem_eventsOf hclearing hplacing) slot id key
  refine ⟨hplain, hasked.trans ?_⟩
  simp only [told, hevents, hevents', List.map_append, Slot.after_append, after_clearings,
    hunreached _ .creation (by decide) (by decide),
    hunreached _ .announcement (by decide) (by decide)]

end Panel

end Passes

/-- A pass that clears the controls of the requested filters, next to the same pass without
requests; both start from the slots `allotted`. -/
structure Rendered.Clears [Control γ] (asked : Rendered γ) (requests : List FilterId)
    (allotted : SlotTable γ) (plain : Rendered γ) : Prop where
  /-- The clearings come in the order of the requests, before any control is told its place. -/
  events : ∃ first second, plain.events = first ++ second ∧
    asked.events = first ++ clearings requests ++ second ∧
    (∀ event ∈ first, event.group = .creation ∨ event.group = .announcement) ∧
    ∀ event ∈ second, event.group = .placing
  cleared : asked.events.filterMap PanelEvent.cleared? = requests
  completed : asked.events.filterMap PanelEvent.completed? = requests
  control : ∀ id key, asked.panel.slots.keyOf id = some key →
    ∃ slot, allotted.get? key = some slot ∧
      plain.panel.slots.get? key = some (slot.after id key (plain.events.map .told)) ∧
      asked.panel.slots.get? key =
        some ({ slot with control := Control.clear^[requests.count id] slot.control }.after
          id key (plain.events.map .told))
  slots : asked.panel.slots.bare = plain.panel.slots.bare
  view : asked.view = plain.view
  settings : asked.panel.settings = plain.panel.settings
  overflow : asked.panel.overflow = plain.panel.overflow
  highlights : asked.panel.highlights = plain.panel.highlights

def Rendered.ClearsOnce (rendered : Rendered γ) (resolve : ScopeResolver) (input : PanelInput) :
    Prop :=
  ∀ id ∈ input.clearAll, input.Contains resolve id →
    (rendered.events.filterMap PanelEvent.cleared?).count id = 1 ∧
      (rendered.events.filterMap PanelEvent.completed?).count id = 1

theorem Rendered.Clears.once_iff [Control γ] {asked plain : Rendered γ} {resolve : ScopeResolver}
    {input : PanelInput} {allotted : SlotTable γ}
    (h : asked.Clears (input.requests resolve) allotted plain) :
    asked.ClearsOnce resolve input ↔ (input.requests resolve).Nodup := by
  unfold ClearsOnce
  rw [h.cleared, h.completed, List.nodup_iff_count_eq_one]
  simp only [and_self, PanelInput.requests, List.mem_filter, decide_eq_true_iff, and_imp]

namespace Panel

variable [Control γ] {panel : Panel γ}

theorem clears_renderWith_of_indexed (h : panel.slots.Indexed) (resolve : ScopeResolver)
    (input : PanelInput) :
    (panel.renderWith resolve input).Clears (input.requests resolve)
      (panel.allocated resolve input)
      (panel.renderWith resolve input.withoutRequests) := by
  obtain ⟨hevents, hevents'⟩ := events_withoutRequests h resolve input
  constructor
  case events =>
    refine ⟨panel.eventsOf resolve input .creation ++ panel.eventsOf resolve input .announcement,
      panel.eventsOf resolve input .placing, ?_, ?_, ?_, fun _ => group_of_mem_eventsOf⟩
    · rw [hevents', List.append_assoc]
    · rw [hevents, List.append_assoc, List.append_assoc]
    · intro event hevent
      exact (List.mem_append.1 hevent).imp group_of_mem_eventsOf group_of_mem_eventsOf
  case cleared =>
    rw [filterMap_renderWith panel resolve input fun _ => PanelEvent.cleared?_of_group,
      eventsOf_clearing h, filterMap_cleared?_clearings]
  case completed =>
    rw [filterMap_renderWith panel resolve input fun _ => PanelEvent.completed?_of_group,
      eventsOf_clearing h, filterMap_completed?_clearings]
  case control =>
    intro id key hkey
    rw [(touched_renderWith h resolve input).keyOf] at hkey
    obtain ⟨slot, hslot, -⟩ := (allocated_spec h resolve input).indexed.resolves hkey
    exact ⟨slot, hslot, slot_withoutRequests h hkey hslot⟩
  case slots => exact (panel.placedIn_withoutRequests resolve input).1.symm
  case view => exact panel.view_withoutRequests resolve input
  case settings => rfl
  case overflow => rfl
  case highlights => rfl

end Panel

/-- Whatever happened before, a pass clears the filters of the list that it contains and does
nothing else on account of the list. It clears each of them once exactly if none is listed twice. -/
theorem clears_renderWith [Control γ] (settings : Settings) (commands : List (PanelCommand γ))
    (resolve : ScopeResolver) (input : PanelInput) :
    let panel := (Panel.start settings).run commands
    let asked := panel.renderWith resolve input
    asked.Clears (input.requests resolve) (panel.allocated resolve input)
        (panel.renderWith resolve input.withoutRequests) ∧
      (asked.ClearsOnce resolve input ↔ (input.requests resolve).Nodup) := by
  intro panel asked
  have h : panel.slots.Indexed := Panel.indexed_run SlotTable.indexed_empty commands
  have hclears := Panel.clears_renderWith_of_indexed h resolve input
  exact ⟨hclears, hclears.once_iff⟩

theorem not_clearsOnce :
    ¬ ∀ (settings : Settings) (commands : List (PanelCommand ControlRecord)) (input : PanelInput),
      (((Panel.start settings).run commands).render input).ClearsOnce Tabs.split input := by
  intro hall
  have honce := hall {} []
    { snapshot := { filters := [{ id := ⟨"a"⟩, name := "A" }] }, clearAll := [⟨"a"⟩, ⟨"a"⟩] }
    ⟨"a"⟩ (by decide) (by decide)
  revert honce
  decide

end DashboardFilters
