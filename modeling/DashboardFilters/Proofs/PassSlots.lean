import DashboardFilters.Panel
import DashboardFilters.Proofs.LineupContents
import DashboardFilters.Proofs.SlotAllocation

namespace DashboardFilters

variable {γ : Type}

/-! What the records of a run say about one control, the one of an id that is held under a key. -/

inductive PanelRecord (γ : Type) where
  | told (event : PanelEvent)
  | edited (key : SlotKey) (change : γ → γ)

namespace PanelRecord

def creates (id : FilterId) : PanelRecord γ → Bool
  | told (.created other) => other == id
  | _ => false

def destination (id : FilterId) : PanelRecord γ → Option Placement → Option Placement
  | told (.placed other placement), current => if other = id then some placement else current
  | _, current => current

def lastPlacement (id : FilterId) (records : List (PanelRecord γ)) (current : Option Placement) :
    Option Placement :=
  records.foldl (fun current record => record.destination id current) current

theorem lastPlacement_append (id : FilterId) (first second : List (PanelRecord γ))
    (current : Option Placement) :
    lastPlacement id (first ++ second) current =
      lastPlacement id second (lastPlacement id first current) :=
  List.foldl_append

variable [Control γ]

def effect (id : FilterId) (key : SlotKey) : PanelRecord γ → γ → γ
  | told (.placed other placement), control =>
      if other = id then Control.setPlacement placement control else control
  | told (.cleared other), control => if other = id then Control.clear control else control
  | edited other change, control => if other = key then change control else control
  | told _, control => control

def replay (id : FilterId) (key : SlotKey) (records : List (PanelRecord γ)) (control : γ) : γ :=
  records.foldl (fun control record => record.effect id key control) control

theorem replay_append (id : FilterId) (key : SlotKey) (first second : List (PanelRecord γ))
    (control : γ) :
    replay id key (first ++ second) control = replay id key second (replay id key first control) :=
  List.foldl_append

end PanelRecord

open PanelRecord

section Touched

variable [Control γ]

def Slot.after (slot : Slot γ) (id : FilterId) (key : SlotKey) (records : List (PanelRecord γ)) :
    Slot γ :=
  { slot with
    control := replay id key records slot.control
    placement := lastPlacement id records slot.placement }

@[simp] theorem Slot.control_after (slot : Slot γ) (id : FilterId) (key : SlotKey)
    (records : List (PanelRecord γ)) :
    (slot.after id key records).control = replay id key records slot.control := rfl

@[simp] theorem Slot.after_nil (slot : Slot γ) (id : FilterId) (key : SlotKey) :
    slot.after id key [] = slot := rfl

theorem Slot.after_append (slot : Slot γ) (id : FilterId) (key : SlotKey)
    (first second : List (PanelRecord γ)) :
    slot.after id key (first ++ second) = (slot.after id key first).after id key second := by
  simp [Slot.after, replay_append, lastPlacement_append]

@[simp] theorem Slot.after_cleared (slot : Slot γ) (id other : FilterId) (key : SlotKey) :
    slot.after id key [.told (.cleared other), .told (.clearCompleted other)] =
      if other = id then { slot with control := Control.clear slot.control } else slot := by
  by_cases hid : other = id <;> simp [Slot.after, replay, lastPlacement, effect, destination, hid]

@[simp] theorem Slot.after_placed (slot : Slot γ) (id other : FilterId) (key : SlotKey)
    (placement : Placement) :
    slot.after id key [.told (.placed other placement)] =
      if other = id then slot.shownAt placement else slot := by
  by_cases hid : other = id <;>
    simp [Slot.after, Slot.shownAt, replay, lastPlacement, effect, destination, hid]

@[simp] theorem Slot.after_edited (slot : Slot γ) (id : FilterId) (key other : SlotKey)
    (change : γ → γ) :
    slot.after id key [.edited other change] =
      if other = key then { slot with control := change slot.control } else slot := by
  by_cases hkey : other = key <;>
    simp [Slot.after, replay, lastPlacement, effect, destination, hkey]

/-- The second table has the slots of the first under the same keys, with what the records did to
them. -/
structure Touched (table : SlotTable γ) (records : List (PanelRecord γ)) (table' : SlotTable γ) :
    Prop where
  keys : table'.keys = table.keys
  issued : ∀ {key}, table'.slots.Issued key ↔ table.slots.Issued key
  vacant : ∀ {key}, table.get? key = none → table'.get? key = none
  slot : ∀ {id key slot}, table.keyOf id = some key → table.get? key = some slot →
    table'.get? key = some (slot.after id key records)

namespace Touched

variable {table mid table' : SlotTable γ} {records first second : List (PanelRecord γ)}

theorem refl (table : SlotTable γ) : Touched table [] table :=
  ⟨rfl, .rfl, id, fun _ hslot => hslot⟩

theorem keyOf (h : Touched table records table') (id : FilterId) :
    table'.keyOf id = table.keyOf id := by
  unfold SlotTable.keyOf
  rw [h.keys]

theorem trans (hfirst : Touched table first mid) (hsecond : Touched mid second table') :
    Touched table (first ++ second) table' where
  keys := hsecond.keys.trans hfirst.keys
  issued := hsecond.issued.trans hfirst.issued
  vacant := fun hnone => hsecond.vacant (hfirst.vacant hnone)
  slot := by
    intro id key slot hkey hslot
    rw [Slot.after_append]
    exact hsecond.slot ((hfirst.keyOf id).trans hkey) (hfirst.slot hkey hslot)

theorem indexed (h : Touched table records table') (hindexed : table.Indexed) :
    table'.Indexed where
  nodup := by
    rw [h.keys]
    exact hindexed.nodup
  resolves := by
    intro id key hkey
    rw [h.keyOf] at hkey
    obtain ⟨slot, hslot, hid⟩ := hindexed.resolves hkey
    exact ⟨_, h.slot hkey hslot, hid⟩
  keyed := by
    intro key slot' hslot'
    rw [h.keyOf]
    cases hslot : table.get? key with
    | none =>
        rw [h.vacant hslot] at hslot'
        cases hslot'
    | some slot =>
        have hkey := hindexed.keyed hslot
        rw [h.slot hkey hslot] at hslot'
        cases hslot'
        exact hkey

theorem retired (h : Touched table records table') {key : SlotKey}
    (hretired : table.slots.Retired key) : table'.slots.Retired key :=
  ⟨h.issued.2 hretired.1, h.vacant hretired.2⟩

end Touched

theorem touched_modifySlot {table : SlotTable γ} (h : table.Indexed) {id : FilterId}
    {key : SlotKey} (hkey : table.keyOf id = some key) {records : List (PanelRecord γ)}
    {f : Slot γ → Slot γ} (hf : ∀ slot, f slot = slot.after id key records)
    (hother : ∀ slot other otherKey, other ≠ id → otherKey ≠ key →
      Slot.after slot other otherKey records = slot) :
    Touched table records (table.modifySlot key f) where
  keys := rfl
  issued := Arena.issued_modify
  vacant := by
    intro other hnone
    have hnone : table.slots.get? other = none := hnone
    show (table.slots.modify key f).get? other = none
    simp [Arena.get?_modify, hnone]
  slot := by
    intro other otherKey slot hotherKey hslot
    have hslot : table.slots.get? otherKey = some slot := hslot
    show (table.slots.modify key f).get? otherKey = _
    rw [Arena.get?_modify, hslot]
    split
    · rename_i heq
      subst heq
      rw [h.keyOf_injective hotherKey hkey, Option.map_some, hf]
    · rename_i hne
      have hids : other ≠ id := by
        intro heq
        subst heq
        rw [hkey] at hotherKey
        exact hne (Option.some.inj hotherKey).symm
      rw [hother slot other otherKey hids hne]

theorem touched_modifyControl (table : SlotTable γ) (key : SlotKey) (change : γ → γ) :
    Touched table [.edited key change] (table.modifyControl key change) where
  keys := rfl
  issued := Arena.issued_modify
  vacant := by
    intro other hnone
    have hnone : table.slots.get? other = none := hnone
    show (table.slots.modify key _).get? other = none
    simp [Arena.get?_modify, hnone]
  slot := by
    intro id other slot _ hslot
    have hslot : table.slots.get? other = some slot := hslot
    show (table.slots.modify key _).get? other = _
    rw [Arena.get?_modify, hslot, Slot.after_edited]
    by_cases heq : other = key
    · simp [heq]
    · simp [heq, Ne.symm heq]

namespace SlotTable

variable {table : SlotTable γ} {key : SlotKey}

theorem clearOne_of_absent {id : FilterId} (habsent : table.keyOf id = none)
    (events : List PanelEvent) : clearOne (table, events) id = (table, events) := by
  simp only [clearOne, habsent]

theorem Indexed.clearOne_of_keyOf (h : table.Indexed) {id : FilterId}
    (hkey : table.keyOf id = some key) (events : List PanelEvent) :
    clearOne (table, events) id =
      (table.modifyControl key Control.clear, events ++ [.cleared id, .clearCompleted id]) := by
  obtain ⟨slot, hslot, -⟩ := h.resolves hkey
  simp only [clearOne, hkey, hslot]

variable {target : FilterId × Placement} {slot : Slot γ}

theorem placeOne_of_absent (habsent : table.keyOf target.1 = none) (events : List PanelEvent) :
    placeOne (table, events) target = (table, events) := by
  simp only [placeOne, habsent]

theorem placeOne_of_there (hkey : table.keyOf target.1 = some key)
    (hslot : table.get? key = some slot) (hthere : slot.placement = some target.2)
    (events : List PanelEvent) : placeOne (table, events) target = (table, events) := by
  simp only [placeOne, hkey, place_of_there hslot hthere, Bool.false_eq_true, if_false]

theorem placeOne_of_elsewhere (hkey : table.keyOf target.1 = some key)
    (hslot : table.get? key = some slot) (helsewhere : slot.placement ≠ some target.2)
    (events : List PanelEvent) :
    placeOne (table, events) target =
      (table.modifySlot key (Slot.shownAt target.2), events ++ [.placed target.1 target.2]) := by
  simp only [placeOne, hkey, place_of_elsewhere hslot helsewhere, if_true]

end SlotTable

theorem touched_clearOne {table : SlotTable γ} (h : table.Indexed) (events : List PanelEvent)
    (id : FilterId) : ∃ further,
      (SlotTable.clearOne (table, events) id).2 = events ++ further ∧
        Touched table (further.map .told) (SlotTable.clearOne (table, events) id).1 := by
  cases hkey : table.keyOf id with
  | none =>
      rw [SlotTable.clearOne_of_absent hkey]
      exact ⟨[], (List.append_nil _).symm, .refl table⟩
  | some key =>
      rw [h.clearOne_of_keyOf hkey]
      refine ⟨[.cleared id, .clearCompleted id], rfl, touched_modifySlot h hkey ?_ ?_⟩
      · intro slot
        simp
      · intro slot other otherKey hid _
        simp [Ne.symm hid]

theorem touched_placeOne {table : SlotTable γ} (h : table.Indexed) (events : List PanelEvent)
    (target : FilterId × Placement) : ∃ further,
      (SlotTable.placeOne (table, events) target).2 = events ++ further ∧
        Touched table (further.map .told) (SlotTable.placeOne (table, events) target).1 := by
  cases hkey : table.keyOf target.1 with
  | none =>
      rw [SlotTable.placeOne_of_absent hkey]
      exact ⟨[], (List.append_nil _).symm, .refl table⟩
  | some key =>
      obtain ⟨slot, hslot, -⟩ := h.resolves hkey
      by_cases hthere : slot.placement = some target.2
      · rw [SlotTable.placeOne_of_there hkey hslot hthere]
        exact ⟨[], (List.append_nil _).symm, .refl table⟩
      · rw [SlotTable.placeOne_of_elsewhere hkey hslot hthere]
        refine ⟨[.placed target.1 target.2], rfl, touched_modifySlot h hkey ?_ ?_⟩
        · intro slot
          simp
        · intro slot other otherKey hid _
          simp [Ne.symm hid]

theorem touched_foldl {β : Type}
    {step : SlotTable γ × List PanelEvent → β → SlotTable γ × List PanelEvent}
    (hstep : ∀ {table : SlotTable γ} (_ : table.Indexed) (events : List PanelEvent) (target : β),
      ∃ further, (step (table, events) target).2 = events ++ further ∧
        Touched table (further.map .told) (step (table, events) target).1)
    (targets : List β) {table : SlotTable γ} (h : table.Indexed) (events : List PanelEvent) :
    ∃ further, (targets.foldl step (table, events)).2 = events ++ further ∧
      Touched table (further.map .told) (targets.foldl step (table, events)).1 := by
  induction targets generalizing table events with
  | nil => exact ⟨[], by simp, .refl table⟩
  | cons target targets ih =>
      obtain ⟨first, hfirst, htouched⟩ := hstep h events target
      obtain ⟨others, hothers, htouched'⟩ :=
        ih (htouched.indexed h) (step (table, events) target).2
      refine ⟨first ++ others, ?_, ?_⟩
      · rw [List.foldl_cons, hothers, hfirst, List.append_assoc]
      · rw [List.map_append]
        exact htouched.trans htouched'

def PanelInput.split (input : PanelInput) (resolve : ScopeResolver) : ScopeSplit :=
  resolve input.snapshot.filters input.snapshot.tabs

def PanelInput.lineup (input : PanelInput) (resolve : ScopeResolver) : Lineup :=
  .ofSplit (input.split resolve) input.crossFilters

def PanelInput.Contains (input : PanelInput) (resolve : ScopeResolver) (id : FilterId) : Prop :=
  id ∈ (input.split resolve).items.map (·.id) ∨ id ∈ input.crossFilters.map (·.id)

instance (input : PanelInput) (resolve : ScopeResolver) (id : FilterId) :
    Decidable (input.Contains resolve id) :=
  inferInstanceAs (Decidable (_ ∨ _))

namespace Panel

def overflowIn (panel : Panel γ) (resolve : ScopeResolver) (input : PanelInput) : Overflow :=
  ((panel.overflow.setMode input.mode).overflow.commit
    ((input.lineup resolve).row.map (·.id))).overflow

def allocated (panel : Panel γ) (resolve : ScopeResolver) (input : PanelInput) : SlotTable γ :=
  (panel.slots.allocate (input.lineup resolve).present).1

def clearedIn (panel : Panel γ) (resolve : ScopeResolver) (input : PanelInput) :
    SlotTable γ × List PanelEvent :=
  input.clearAll.foldl SlotTable.clearOne (panel.allocated resolve input, [])

def placedIn (panel : Panel γ) (resolve : ScopeResolver) (input : PanelInput) :
    SlotTable γ × List PanelEvent :=
  ((input.lineup resolve).placements input.mode (panel.overflowIn resolve input)).foldl
    SlotTable.placeOne ((panel.clearedIn resolve input).1, [])

theorem slots_renderWith (panel : Panel γ) (resolve : ScopeResolver) (input : PanelInput) :
    (panel.renderWith resolve input).panel.slots = (panel.placedIn resolve input).1 := rfl

def announcements (panel : Panel γ) (resolve : ScopeResolver) (input : PanelInput) :
    List PanelEvent :=
  let switched := panel.overflow.setMode input.mode
  let committed := switched.overflow.commit ((input.lineup resolve).row.map (·.id))
  (switched.notice.toList ++ committed.notice.toList).map .overflowChanged
    ++ ((panel.highlights.observe input.highlight
        (panel.overflowIn resolve input).ids).2).toList.map .openRequested

theorem events_renderWith (panel : Panel γ) (resolve : ScopeResolver) (input : PanelInput) :
    (panel.renderWith resolve input).events =
      (panel.slots.allocate (input.lineup resolve).present).2.created.map .created
        ++ (panel.announcements resolve input
          ++ ((panel.clearedIn resolve input).2 ++ (panel.placedIn resolve input).2)) := by
  simp only [announcements, ← List.append_assoc]
  rfl

end Panel

/-! The events of a pass come in four groups, one after the other. -/

inductive EventGroup where
  | creation
  | announcement
  | clearing
  | placing
  | selection
deriving DecidableEq

def PanelEvent.group : PanelEvent → EventGroup
  | .created _ => .creation
  | .overflowChanged _ | .openRequested _ => .announcement
  | .cleared _ | .clearCompleted _ => .clearing
  | .placed _ _ => .placing
  | .selected _ _ => .selection

omit [Control γ] in
theorem forall_foldl_events {β : Type} {P : PanelEvent → Prop}
    {step : SlotTable γ × List PanelEvent → β → SlotTable γ × List PanelEvent}
    (hstep : ∀ state target, (∀ event ∈ state.2, P event) →
      ∀ event ∈ (step state target).2, P event)
    (targets : List β) (state : SlotTable γ × List PanelEvent) (h : ∀ event ∈ state.2, P event) :
    ∀ event ∈ (targets.foldl step state).2, P event := by
  induction targets generalizing state with
  | nil => exact h
  | cons target targets ih => exact ih _ (hstep state target h)

theorem group_clearOne (state : SlotTable γ × List PanelEvent) (id : FilterId)
    (h : ∀ event ∈ state.2, event.group = .clearing) :
    ∀ event ∈ (SlotTable.clearOne state id).2, event.group = .clearing := by
  obtain ⟨table, events⟩ := state
  intro event hevent
  cases hkey : table.keyOf id with
  | none =>
      rw [SlotTable.clearOne_of_absent hkey] at hevent
      exact h event hevent
  | some key =>
      simp only [SlotTable.clearOne, hkey] at hevent
      split at hevent
      · exact h event hevent
      · simp only [List.mem_append, List.mem_cons, List.not_mem_nil, or_false] at hevent
        rcases hevent with hevent | rfl | rfl
        · exact h event hevent
        · rfl
        · rfl

theorem group_placeOne (state : SlotTable γ × List PanelEvent)
    (target : FilterId × Placement) (h : ∀ event ∈ state.2, event.group = .placing) :
    ∀ event ∈ (SlotTable.placeOne state target).2, event.group = .placing := by
  obtain ⟨table, events⟩ := state
  intro event hevent
  cases hkey : table.keyOf target.1 with
  | none =>
      rw [SlotTable.placeOne_of_absent hkey] at hevent
      exact h event hevent
  | some key =>
      simp only [SlotTable.placeOne, hkey] at hevent
      split at hevent
      · rcases List.mem_append.1 hevent with hevent | hevent
        · exact h event hevent
        · rw [List.mem_singleton.1 hevent]
          rfl
      · exact h event hevent

namespace Panel

def eventsOf (panel : Panel γ) (resolve : ScopeResolver) (input : PanelInput) :
    EventGroup → List PanelEvent
  | .creation => (panel.slots.allocate (input.lineup resolve).present).2.created.map .created
  | .announcement => panel.announcements resolve input
  | .clearing => (panel.clearedIn resolve input).2
  | .placing => (panel.placedIn resolve input).2
  | .selection => []

theorem group_of_mem_eventsOf {panel : Panel γ} {resolve : ScopeResolver} {input : PanelInput}
    {group : EventGroup} {event : PanelEvent} (h : event ∈ panel.eventsOf resolve input group) :
    event.group = group := by
  cases group with
  | creation =>
      obtain ⟨id, -, rfl⟩ := List.mem_map.1 h
      rfl
  | announcement =>
      simp only [eventsOf, announcements, List.mem_append, List.mem_map] at h
      rcases h with ⟨notice, -, rfl⟩ | ⟨id, -, rfl⟩
      · rfl
      · rfl
  | clearing =>
      exact forall_foldl_events group_clearOne _ _ (fun _ h => absurd h List.not_mem_nil) event h
  | placing =>
      exact forall_foldl_events group_placeOne _ _ (fun _ h => absurd h List.not_mem_nil) event h
  | selection => exact absurd h List.not_mem_nil

theorem filterMap_renderWith {β : Type} (panel : Panel γ) (resolve : ScopeResolver)
    (input : PanelInput) {f : PanelEvent → Option β} {group : EventGroup}
    (hf : ∀ event, event.group ≠ group → f event = none) :
    (panel.renderWith resolve input).events.filterMap f =
      (panel.eventsOf resolve input group).filterMap f := by
  have hnone : ∀ other, other ≠ group → (panel.eventsOf resolve input other).filterMap f = [] := by
    intro other hother
    rw [List.filterMap_eq_nil_iff]
    intro event hevent
    exact hf event (group_of_mem_eventsOf hevent ▸ hother)
  have hevents : (panel.renderWith resolve input).events =
      panel.eventsOf resolve input .creation ++ (panel.eventsOf resolve input .announcement ++
        (panel.eventsOf resolve input .clearing ++ panel.eventsOf resolve input .placing)) :=
    panel.events_renderWith resolve input
  simp only [hevents, List.filterMap_append]
  cases group with
  | creation =>
      simp only [hnone .announcement (by decide), hnone .clearing (by decide),
        hnone .placing (by decide), List.append_nil]
  | announcement =>
      simp only [hnone .creation (by decide), hnone .clearing (by decide),
        hnone .placing (by decide), List.nil_append, List.append_nil]
  | clearing =>
      simp only [hnone .creation (by decide), hnone .announcement (by decide),
        hnone .placing (by decide), List.nil_append, List.append_nil]
  | placing =>
      simp only [hnone .creation (by decide), hnone .announcement (by decide),
        hnone .clearing (by decide), List.nil_append]
  | selection =>
      simp only [hnone .creation (by decide), hnone .announcement (by decide),
        hnone .clearing (by decide), hnone .placing (by decide), List.nil_append]
      rfl

end Panel

def PanelEvent.reachesControl : PanelEvent → Bool
  | .placed _ _ | .cleared _ => true
  | _ => false

omit [Control γ] in
theorem PanelEvent.unreached_of_group {event : PanelEvent} (hclearing : event.group ≠ .clearing)
    (hplacing : event.group ≠ .placing) : event.reachesControl = false := by
  cases event with
  | cleared => exact absurd rfl hclearing
  | placed => exact absurd rfl hplacing
  | created | clearCompleted | overflowChanged | openRequested | selected => rfl

theorem Slot.after_of_unreached {events : List PanelEvent}
    (h : ∀ event ∈ events, event.reachesControl = false) (slot : Slot γ) (id : FilterId)
    (key : SlotKey) : slot.after id key (events.map .told) = slot := by
  induction events with
  | nil => rfl
  | cons event events ih =>
      have hevent := h event List.mem_cons_self
      have hrest := ih fun other hother => h other (List.mem_cons_of_mem _ hother)
      have hone : slot.after id key [.told event] = slot := by
        cases event with
        | placed | cleared => cases hevent
        | created | clearCompleted | overflowChanged | openRequested | selected => rfl
      rw [List.map_cons, ← List.singleton_append, Slot.after_append, hone, hrest]

theorem touched_of_unreached (table : SlotTable γ) {events : List PanelEvent}
    (h : ∀ event ∈ events, event.reachesControl = false) :
    Touched table (events.map .told) table where
  keys := rfl
  issued := .rfl
  vacant := fun hnone => hnone
  slot := by
    intro id key slot _ hslot
    rw [Slot.after_of_unreached h, hslot]

namespace Panel

theorem allocated_spec {panel : Panel γ} (h : panel.slots.Indexed) (resolve : ScopeResolver)
    (input : PanelInput) :
    panel.slots.Allocated (input.lineup resolve).present (panel.allocated resolve input) :=
  SlotTable.allocated_allocate h _

theorem unreached_of_mem_eventsOf {panel : Panel γ} {resolve : ScopeResolver} {input : PanelInput}
    {group : EventGroup} (hclearing : group ≠ .clearing) (hplacing : group ≠ .placing) :
    ∀ event ∈ panel.eventsOf resolve input group, event.reachesControl = false := by
  intro event hevent
  rw [← group_of_mem_eventsOf hevent] at hclearing hplacing
  exact PanelEvent.unreached_of_group hclearing hplacing

theorem touched_eventsOf (panel : Panel γ) (resolve : ScopeResolver) (input : PanelInput)
    (group : EventGroup) (hclearing : group ≠ .clearing) (hplacing : group ≠ .placing)
    (table : SlotTable γ) :
    Touched table ((panel.eventsOf resolve input group).map .told) table :=
  touched_of_unreached table (unreached_of_mem_eventsOf hclearing hplacing)

theorem touched_clearedIn {panel : Panel γ} (h : panel.slots.Indexed) (resolve : ScopeResolver)
    (input : PanelInput) :
    Touched (panel.allocated resolve input)
      ((panel.eventsOf resolve input .clearing).map .told) (panel.clearedIn resolve input).1 := by
  obtain ⟨clearings, hclearings, htouched⟩ :=
    touched_foldl touched_clearOne input.clearAll (panel.allocated_spec h resolve input).indexed []
  have hevents : panel.eventsOf resolve input .clearing = clearings := hclearings
  rw [hevents]
  exact htouched

theorem touched_placedIn {panel : Panel γ} (h : panel.slots.Indexed) (resolve : ScopeResolver)
    (input : PanelInput) :
    Touched (panel.clearedIn resolve input).1
      ((panel.eventsOf resolve input .placing).map .told) (panel.placedIn resolve input).1 := by
  have hcleared := (touched_clearedIn h resolve input).indexed
    (panel.allocated_spec h resolve input).indexed
  obtain ⟨placings, hplacings, htouched⟩ :=
    touched_foldl touched_placeOne
      ((input.lineup resolve).placements input.mode (panel.overflowIn resolve input)) hcleared []
  have hevents : panel.eventsOf resolve input .placing = placings := hplacings
  rw [hevents]
  exact htouched

/-- After the allocation a pass only clears and places controls, as its events say. -/
theorem touched_renderWith {panel : Panel γ} (h : panel.slots.Indexed) (resolve : ScopeResolver)
    (input : PanelInput) :
    Touched (panel.allocated resolve input)
      ((panel.renderWith resolve input).events.map .told)
      (panel.renderWith resolve input).panel.slots := by
  have hcreated := panel.touched_eventsOf resolve input .creation (by decide) (by decide)
    (panel.allocated resolve input)
  have hannounced := panel.touched_eventsOf resolve input .announcement (by decide) (by decide)
    (panel.allocated resolve input)
  have htouched := hcreated.trans (hannounced.trans
    ((touched_clearedIn h resolve input).trans (touched_placedIn h resolve input)))
  rw [← List.map_append, ← List.map_append, ← List.map_append] at htouched
  rw [events_renderWith, slots_renderWith]
  exact htouched

end Panel

omit [Control γ] in
theorem countP_creates_of_group {events : List PanelEvent} (id : FilterId)
    (h : ∀ event ∈ events, event.group ≠ .creation) :
    (events.map (PanelRecord.told (γ := γ))).countP (creates id) = 0 := by
  rw [List.countP_eq_zero]
  intro record hrecord
  obtain ⟨event, hevent, rfl⟩ := List.mem_map.1 hrecord
  have hno := h event hevent
  cases event with
  | created => exact absurd rfl hno
  | placed | cleared | clearCompleted | overflowChanged | openRequested | selected =>
      simp [creates]

theorem countP_creates_renderWith (panel : Panel γ) (resolve : ScopeResolver) (input : PanelInput)
    (id : FilterId) :
    ((panel.renderWith resolve input).events.map (PanelRecord.told (γ := γ))).countP (creates id) =
      (panel.slots.allocate (input.lineup resolve).present).2.created.count id := by
  have hnone : ∀ group, group ≠ .creation →
      ((panel.eventsOf resolve input group).map (PanelRecord.told (γ := γ))).countP
        (creates id) = 0 := by
    intro group hgroup
    apply countP_creates_of_group
    exact fun event hevent => Panel.group_of_mem_eventsOf hevent ▸ hgroup
  have hannounced := hnone .announcement (by decide)
  have hcleared := hnone .clearing (by decide)
  have hplaced := hnone .placing (by decide)
  simp only [Panel.eventsOf] at hannounced hcleared hplaced
  rw [Panel.events_renderWith]
  simp only [List.map_append, List.countP_append, hannounced, hcleared, hplaced]
  rw [List.map_map, List.countP_map]
  rfl

end Touched

end DashboardFilters
