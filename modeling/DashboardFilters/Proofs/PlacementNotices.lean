import DashboardFilters.Proofs.OverflowNotices
import DashboardFilters.Proofs.ViewContents
import Mathlib.Data.List.DropRight

/-!
The places that controls are told of. A pass tells a control of its place only if that is not the
one it was told of last, so over its life a control hears of every change of place, once, and the
slot keeps the latest.
-/

namespace DashboardFilters

variable {γ : Type}

def PanelEvent.placement? (id : FilterId) : PanelEvent → Option Placement
  | .placed other placement => if other = id then some placement else none
  | _ => none

theorem PanelEvent.placement?_of_group {event : PanelEvent} (h : event.group ≠ .placing)
    (id : FilterId) : event.placement? id = none := by
  cases event with
  | placed => exact absurd rfl h
  | created | cleared | clearCompleted | overflowChanged | openRequested | selected => rfl

namespace PanelRecord

variable {id : FilterId} {first second : List (PanelRecord γ)}

def placement? (id : FilterId) : PanelRecord γ → Option Placement
  | told event => event.placement? id
  | edited _ _ => none

def deliveries (id : FilterId) (records : List (PanelRecord γ)) : List Placement :=
  records.filterMap (placement? id)

/-- The records since the latest call of the factory for a filter. -/
def life (id : FilterId) (records : List (PanelRecord γ)) : List (PanelRecord γ) :=
  records.rtakeWhile fun record => !record.creates id

theorem deliveries_append (id : FilterId) (first second : List (PanelRecord γ)) :
    deliveries id (first ++ second) = deliveries id first ++ deliveries id second :=
  List.filterMap_append

theorem deliveries_told (id : FilterId) (events : List PanelEvent) :
    deliveries id (events.map (told (γ := γ))) = events.filterMap (PanelEvent.placement? id) := by
  rw [deliveries, List.filterMap_map]
  rfl

theorem destination_eq (id : FilterId) (record : PanelRecord γ) (current : Option Placement) :
    record.destination id current = (record.placement? id).or current := by
  cases record with
  | edited => rfl
  | told event =>
      cases event with
      | placed other placement =>
          simp only [destination, placement?, PanelEvent.placement?]
          split <;> rfl
      | created | cleared | clearCompleted | overflowChanged | openRequested | selected => rfl

theorem lastPlacement_eq (id : FilterId) (records : List (PanelRecord γ))
    (current : Option Placement) :
    lastPlacement id records current = (deliveries id records).getLast?.or current := by
  induction records generalizing current with
  | nil => rfl
  | cons record records ih =>
      have hstep : lastPlacement id (record :: records) current =
          lastPlacement id records (record.destination id current) := rfl
      rw [hstep, ih, destination_eq, deliveries, deliveries]
      cases hplacement : record.placement? id with
      | none => rw [List.filterMap_cons_none hplacement, Option.none_or]
      | some placement =>
          rw [List.filterMap_cons_some hplacement, List.getLast?_cons, Option.some_or]
          cases (records.filterMap (placement? id)).getLast? <;> rfl

theorem life_append (h : second.countP (creates id) = 0) :
    life id (first ++ second) = life id first ++ second := by
  have hnone : ∀ record ∈ second.reverse, (!record.creates id) = true := by
    intro record hrecord
    have hcreates := List.countP_eq_zero.1 h record (List.mem_reverse.1 hrecord)
    rw [Bool.not_eq_true] at hcreates
    rw [hcreates]
    rfl
  rw [life, List.rtakeWhile, List.reverse_append, List.takeWhile_append_of_pos hnone,
    List.reverse_append, List.reverse_reverse]
  rfl

theorem life_created (first : List (PanelRecord γ)) :
    life id (first ++ [told (.created id)]) = [] := by
  apply List.rtakeWhile_concat_neg
  simp [creates]

end PanelRecord

open PanelRecord

def Placement.notice (current : Option Placement) (placement : Placement) : List Placement :=
  if current = some placement then [] else [placement]

namespace Placement

@[simp] theorem notice_same (placement : Placement) : notice (some placement) placement = [] :=
  if_pos rfl

theorem length_notice (current : Option Placement) (placement : Placement) :
    (notice current placement).length ≤ 1 := by
  unfold notice
  split
  · exact Nat.zero_le 1
  · exact Nat.le_refl 1

theorem getLast?_notice (current : Option Placement) (placement : Placement) :
    (notice current placement).getLast?.or current = some placement := by
  unfold notice
  split
  · assumption
  · rfl

theorem isChain_append_notice {earlier : List Placement} (h : earlier.IsChain (· ≠ ·))
    (placement : Placement) :
    (earlier ++ notice earlier.getLast? placement).IsChain (· ≠ ·) := by
  unfold notice
  split
  · rw [List.append_nil]
    exact h
  · rename_i hother
    refine h.append (.singleton placement) ?_
    intro last hlast next hnext heq
    cases Option.some.inj hnext
    exact hother (heq ▸ hlast)

end Placement

namespace Lineup

variable {split : ScopeSplit} {crossFilters : List CrossFilter} {mode : LayoutMode}
  {overflow : Overflow} {id : FilterId}

def placementOf (lineup : Lineup) (mode : LayoutMode) (overflow : Overflow) (id : FilterId) :
    Placement :=
  if id ∈ lineup.outOfScope.map (·.id) then .outOfScope
  else if mode = .horizontal ∧ id ∈ overflow.ids then .overflowed
  else .inline

theorem not_mem_outOfScope_of_mem_row (h : id ∈ (ofSplit split crossFilters).row.map (·.id)) :
    id ∉ (ofSplit split crossFilters).outOfScope.map (·.id) := by
  rw [mem_outOfScope_iff]
  rw [row_ofSplit, List.map_append, List.mem_append, mem_undisplaced_iff] at h
  intro hout
  rcases h with ⟨-, hdisplaced⟩ | hin
  · exact hdisplaced (List.map_subset _ (List.subset_append_right _ _) hout.1)
  · exact hout.2 hin

theorem placementOf_of_mem_row (h : id ∈ (ofSplit split crossFilters).row.map (·.id)) :
    (ofSplit split crossFilters).placementOf mode overflow id =
      if mode = .horizontal ∧ id ∈ overflow.ids then .overflowed else .inline :=
  if_neg (not_mem_outOfScope_of_mem_row h)

theorem map_fst_placements (lineup : Lineup) (mode : LayoutMode) (overflow : Overflow) :
    (lineup.placements mode overflow).map (·.1) =
      (lineup.outOfScope ++ lineup.row).map (·.id) := by
  simp [placements, Function.comp_def]

theorem snd_of_mem_placements {target : FilterId × Placement}
    (h : target ∈ (ofSplit split crossFilters).placements mode overflow) :
    target.2 = (ofSplit split crossFilters).placementOf mode overflow target.1 := by
  rcases List.mem_append.1 h with hout | hrow
  · obtain ⟨item, hitem, rfl⟩ := List.mem_map.1 hout
    exact (if_pos (List.mem_map_of_mem hitem)).symm
  · obtain ⟨item, hitem, rfl⟩ := List.mem_map.1 hrow
    rw [placementOf_of_mem_row (List.mem_map_of_mem hitem)]
    cases mode with
    | vertical => rfl
    | horizontal => simp [Overflow.isOverflowed]

end Lineup

section Passes

variable [Control γ]

namespace SlotTable

variable {table : SlotTable γ} {id : FilterId} {key : SlotKey} {slot : Slot γ}

theorem notices_placeOne (hkey : table.keyOf id = some key) (hslot : table.get? key = some slot)
    (events : List PanelEvent) (placement : Placement) :
    (placeOne (table, events) (id, placement)).2.filterMap (PanelEvent.placement? id) =
      events.filterMap (PanelEvent.placement? id) ++ Placement.notice slot.placement placement := by
  by_cases hthere : slot.placement = some placement
  · rw [placeOne_of_there hkey hslot hthere, hthere, Placement.notice_same, List.append_nil]
  · rw [placeOne_of_elsewhere hkey hslot hthere, List.filterMap_append]
    simp [hthere, Placement.notice, PanelEvent.placement?]

theorem notices_placeOne_of_ne {target : FilterId × Placement} (hne : target.1 ≠ id)
    (state : SlotTable γ × List PanelEvent) :
    (placeOne state target).2.filterMap (PanelEvent.placement? id) =
      state.2.filterMap (PanelEvent.placement? id) := by
  obtain ⟨table, events⟩ := state
  cases hkey : table.keyOf target.1 with
  | none => rw [placeOne_of_absent hkey]
  | some key =>
      simp only [placeOne, hkey]
      split
      · rw [List.filterMap_append]
        simp [PanelEvent.placement?, hne]
      · rfl

theorem slot_placeOne (h : table.Indexed) (hkey : table.keyOf id = some key)
    (hslot : table.get? key = some slot) (events : List PanelEvent)
    (target : FilterId × Placement) :
    (placeOne (table, events) target).1.Indexed ∧
      (placeOne (table, events) target).1.keyOf id = some key ∧
        ∃ slot', (placeOne (table, events) target).1.get? key = some slot' ∧
          slot'.placement = if target.1 = id then some target.2 else slot.placement := by
  obtain ⟨further, hfurther, htouched⟩ := touched_placeOne h events target
  refine ⟨htouched.indexed h, (htouched.keyOf id).trans hkey, _, htouched.slot hkey hslot, ?_⟩
  show lastPlacement id (further.map .told) slot.placement = _
  rw [lastPlacement_eq, deliveries_told]
  by_cases hid : target.1 = id
  · obtain ⟨other, placement⟩ := target
    cases hid
    have htold := notices_placeOne hkey hslot events placement
    rw [hfurther, List.filterMap_append] at htold
    rw [List.append_cancel_left htold, if_pos rfl]
    exact Placement.getLast?_notice _ _
  · have htold := notices_placeOne_of_ne hid (table, events)
    rw [hfurther, List.filterMap_append] at htold
    rw [List.append_right_eq_self.1 htold, if_neg hid]
    rfl

theorem notices_foldl_placeOne {placement : Placement} (h : table.Indexed)
    (hkey : table.keyOf id = some key) (hslot : table.get? key = some slot)
    {targets : List (FilterId × Placement)}
    (htargets : ∀ target ∈ targets, target.1 = id → target.2 = placement)
    (hmem : id ∈ targets.map (·.1) ∨ slot.placement = some placement) (events : List PanelEvent) :
    (targets.foldl placeOne (table, events)).2.filterMap (PanelEvent.placement? id) =
      events.filterMap (PanelEvent.placement? id) ++ Placement.notice slot.placement placement := by
  induction targets generalizing table slot events with
  | nil =>
      rcases hmem with hmem | hthere
      · exact absurd hmem List.not_mem_nil
      · rw [hthere, Placement.notice_same, List.append_nil]
        rfl
  | cons target targets ih =>
      obtain ⟨hindexed, hkey', slot', hslot', hplacement⟩ :=
        slot_placeOne h hkey hslot events target
      have hrest := fun other hother => htargets other (List.mem_cons_of_mem target hother)
      by_cases hid : target.1 = id
      · -- Targets of the id that come later find the slot at its place and tell nothing.
        have htarget := htargets target List.mem_cons_self hid
        rw [if_pos hid, htarget] at hplacement
        rw [List.foldl_cons, ih hindexed hkey' hslot' hrest (.inr hplacement), hplacement,
          Placement.notice_same, List.append_nil]
        obtain ⟨other, place⟩ := target
        cases hid
        cases htarget
        exact notices_placeOne hkey hslot events place
      · rw [if_neg hid] at hplacement
        have hmem' : id ∈ targets.map (·.1) ∨ slot'.placement = some placement := by
          rw [hplacement]
          exact hmem.imp_left fun hmem => (List.mem_cons.1 hmem).resolve_left (Ne.symm hid)
        rw [List.foldl_cons, ih hindexed hkey' hslot' hrest hmem', hplacement,
          notices_placeOne_of_ne hid]

theorem notices_foldl_placeOne_of_unkeyed (h : table.Indexed) (hkey : table.keyOf id = none)
    (targets : List (FilterId × Placement)) (events : List PanelEvent) :
    (targets.foldl placeOne (table, events)).2.filterMap (PanelEvent.placement? id) =
      events.filterMap (PanelEvent.placement? id) := by
  induction targets generalizing table events with
  | nil => rfl
  | cons target targets ih =>
      obtain ⟨further, -, htouched⟩ := touched_placeOne h events target
      rw [List.foldl_cons, ih (htouched.indexed h) ((htouched.keyOf id).trans hkey)]
      by_cases hid : target.1 = id
      · rw [placeOne_of_absent (hid ▸ hkey)]
      · exact notices_placeOne_of_ne hid (table, events)

end SlotTable

namespace Panel

variable {panel : Panel γ} {resolve : ScopeResolver} {input : PanelInput} {id : FilterId}
  {key : SlotKey} {slot : Slot γ}

def placementIn (panel : Panel γ) (resolve : ScopeResolver) (input : PanelInput) (id : FilterId) :
    Placement :=
  (input.lineup resolve).placementOf input.mode (panel.overflowIn resolve input) id

omit [Control γ] in
theorem mem_placements_iff :
    id ∈ ((input.lineup resolve).placements input.mode
      (panel.overflowIn resolve input)).map (·.1) ↔ input.Contains resolve id := by
  rw [Lineup.map_fst_placements, List.map_append, List.mem_append, or_comm,
    ← mem_present_lineup_iff, Lineup.present, List.map_append, List.mem_append]

theorem notices_renderWith_eq (panel : Panel γ) (resolve : ScopeResolver) (input : PanelInput)
    (id : FilterId) :
    (panel.renderWith resolve input).events.filterMap (PanelEvent.placement? id) =
      (panel.placedIn resolve input).2.filterMap (PanelEvent.placement? id) :=
  panel.filterMap_renderWith resolve input fun _ hgroup =>
    PanelEvent.placement?_of_group hgroup id

theorem slot_clearedIn (h : panel.slots.Indexed)
    (hkey : (panel.allocated resolve input).keyOf id = some key)
    (hslot : (panel.allocated resolve input).get? key = some slot) :
    (panel.clearedIn resolve input).1.Indexed ∧
      (panel.clearedIn resolve input).1.keyOf id = some key ∧
        ∃ slot', (panel.clearedIn resolve input).1.get? key = some slot' ∧
          slot'.placement = slot.placement := by
  have htouched := touched_clearedIn h resolve input
  refine ⟨htouched.indexed (allocated_spec h resolve input).indexed,
    (htouched.keyOf id).trans hkey, _, htouched.slot hkey hslot, ?_⟩
  have hnone : (panel.eventsOf resolve input .clearing).filterMap (PanelEvent.placement? id) =
      [] := by
    rw [List.filterMap_eq_nil_iff]
    intro event hevent
    apply PanelEvent.placement?_of_group
    rw [group_of_mem_eventsOf hevent]
    decide
  show lastPlacement id ((panel.eventsOf resolve input .clearing).map .told) slot.placement = _
  rw [lastPlacement_eq, deliveries_told, hnone]
  rfl

theorem notices_renderWith (h : panel.slots.Indexed) (hcontains : input.Contains resolve id)
    (hkey : (panel.allocated resolve input).keyOf id = some key)
    (hslot : (panel.allocated resolve input).get? key = some slot) :
    (panel.renderWith resolve input).events.filterMap (PanelEvent.placement? id) =
      Placement.notice slot.placement (panel.placementIn resolve input id) := by
  obtain ⟨hcleared, hkey', slot', hslot', hplacement⟩ := slot_clearedIn h hkey hslot
  rw [notices_renderWith_eq, placedIn, ← hplacement]
  refine SlotTable.notices_foldl_placeOne hcleared hkey' hslot' ?_
    (.inl (mem_placements_iff.2 hcontains)) []
  intro target htarget hid
  rw [← hid]
  exact Lineup.snd_of_mem_placements htarget

theorem notices_renderWith_of_absent (h : panel.slots.Indexed)
    (habsent : ¬ input.Contains resolve id) :
    (panel.renderWith resolve input).events.filterMap (PanelEvent.placement? id) = [] := by
  have hallocated := allocated_spec h resolve input
  have htouched := touched_clearedIn h resolve input
  have hkey : (panel.allocated resolve input).keyOf id = none :=
    hallocated.absent fun hmem => habsent (mem_present_lineup_iff.1 hmem)
  rw [notices_renderWith_eq]
  exact SlotTable.notices_foldl_placeOne_of_unkeyed (htouched.indexed hallocated.indexed)
    ((htouched.keyOf id).trans hkey) _ []

theorem length_notices_renderWith (h : panel.slots.Indexed) (resolve : ScopeResolver)
    (input : PanelInput) (id : FilterId) :
    ((panel.renderWith resolve input).events.filterMap (PanelEvent.placement? id)).length ≤ 1 := by
  by_cases hcontains : input.Contains resolve id
  · obtain ⟨key, hkey⟩ := Option.isSome_iff_exists.1
      ((isSome_keyOf_step_iff h (.render resolve input)).2 hcontains)
    have hallocated := allocated_spec h resolve input
    have htouched := touched_renderWith h resolve input
    have hkey' : (panel.allocated resolve input).keyOf id = some key :=
      (htouched.keyOf id).symm.trans hkey
    obtain ⟨slot, hslot, -⟩ := hallocated.indexed.resolves hkey'
    rw [notices_renderWith h hcontains hkey' hslot]
    exact Placement.length_notice _ _
  · rw [notices_renderWith_of_absent h hcontains]
    exact Nat.zero_le 1

theorem placement_renderWith (h : panel.slots.Indexed)
    (hkey : (panel.renderWith resolve input).panel.slots.keyOf id = some key)
    (hslot : (panel.renderWith resolve input).panel.slots.get? key = some slot) :
    slot.placement = some (panel.placementIn resolve input id) := by
  have hcontains : input.Contains resolve id :=
    (isSome_keyOf_renderWith_iff h).1 (by rw [hkey]; rfl)
  have htouched := touched_renderWith h resolve input
  have hkey' : (panel.allocated resolve input).keyOf id = some key :=
    (htouched.keyOf id).symm.trans hkey
  obtain ⟨before, hbefore, -⟩ := (allocated_spec h resolve input).indexed.resolves hkey'
  have hafter := htouched.slot hkey' hbefore
  rw [hslot] at hafter
  rw [Option.some.inj hafter]
  show lastPlacement id _ before.placement = _
  rw [lastPlacement_eq, deliveries_told, notices_renderWith h hcontains hkey' hbefore]
  exact Placement.getLast?_notice _ _

theorem records_of_new (h : panel.slots.Indexed) (hcontains : input.Contains resolve id)
    (hnew : panel.slots.keyOf id = none) : ∃ first second : List PanelEvent,
      panel.records (.render resolve input) =
        (first ++ [PanelEvent.created id]).map .told ++ second.map .told ∧
      (∀ event ∈ first ++ [PanelEvent.created id], event.group = .creation) ∧
      (second.map (told (γ := γ))).countP (creates id) = 0 := by
  have hcreated : id ∈ (panel.slots.allocate (input.lineup resolve).present).2.created :=
    SlotTable.mem_created_iff.2 ⟨mem_present_lineup_iff.2 hcontains, hnew⟩
  obtain ⟨before, after, hids⟩ := List.append_of_mem hcreated
  have hrecords : panel.records (.render resolve input) =
      (before.map PanelEvent.created ++ [PanelEvent.created id]).map .told ++
        (after.map PanelEvent.created ++ (panel.announcements resolve input ++
          ((panel.clearedIn resolve input).2 ++ (panel.placedIn resolve input).2))).map .told := by
    rw [records, events_renderWith, hids, ← List.map_append]
    simp
  refine ⟨_, _, hrecords, ?_, ?_⟩
  · intro event hevent
    rw [← List.map_singleton, ← List.map_append] at hevent
    obtain ⟨other, -, rfl⟩ := List.mem_map.1 hevent
    rfl
  · obtain ⟨_, _, _, _, _, _, hcount, _⟩ := slot_step_of_new h hcontains hnew
    have hcall : ((before.map PanelEvent.created ++ [PanelEvent.created id]).map
        (told (γ := γ))).countP (creates id) ≥ 1 := by
      simp [creates]
    rw [hrecords, List.countP_append] at hcount
    omega

theorem life_records_of_new (h : panel.slots.Indexed) (hcontains : input.Contains resolve id)
    (hnew : panel.slots.keyOf id = none) (earlier : List (PanelRecord γ)) :
    deliveries id (life id (earlier ++ panel.records (.render resolve input))) =
        deliveries id (panel.records (.render resolve input)) ∧
      ∀ (slot : Slot γ) key, slot.after id key (panel.records (.render resolve input)) =
        slot.after id key (life id (earlier ++ panel.records (.render resolve input))) := by
  obtain ⟨first, second, hrecords, hfirst, hcount⟩ := records_of_new h hcontains hnew
  have hlife : life id (earlier ++ panel.records (.render resolve input)) =
      second.map (told (γ := γ)) := by
    rw [hrecords, ← List.append_assoc, life_append hcount, List.map_append, List.map_singleton,
      ← List.append_assoc, life_created, List.nil_append]
  have hunreached : ∀ event ∈ first ++ [PanelEvent.created id],
      event.reachesControl = false := by
    intro event hevent
    apply PanelEvent.unreached_of_group
    · rw [hfirst event hevent]
      decide
    · rw [hfirst event hevent]
      decide
  rw [hlife, hrecords]
  constructor
  · rw [deliveries_append, deliveries_told id (first ++ [PanelEvent.created id]),
      List.filterMap_eq_nil_iff.2, List.nil_append]
    intro event hevent
    apply PanelEvent.placement?_of_group
    rw [hfirst event hevent]
    decide
  · intro slot key
    rw [Slot.after_append, Slot.after_of_unreached hunreached]

/-- The control of a filter has become what it is by what it was told since the factory made it. Of
its places the last one told is the slot's, and no two told in a row are the same. -/
structure Informed (panel : Panel γ) (records : List (PanelRecord γ)) (id : FilterId) : Prop where
  placement : ∀ {key slot}, panel.slots.keyOf id = some key → panel.slots.get? key = some slot →
    slot.placement = (deliveries id (life id records)).getLast?
  control : ∀ {key slot}, panel.slots.keyOf id = some key → panel.slots.get? key = some slot →
    ∃ serial item, item.id = id ∧
      slot.control = replay id key (life id records) (Control.create serial item)
  changing : (deliveries id (life id records)).IsChain (· ≠ ·)

namespace Informed

variable {records : List (PanelRecord γ)} {command : PanelCommand γ}

theorem start (settings : Settings) (id : FilterId) :
    (Panel.start settings : Panel γ).Informed [] id where
  placement := fun hkey _ => nomatch hkey
  control := fun hkey _ => nomatch hkey
  changing := .nil

theorem extend (hinformed : panel.Informed records id) (h : panel.slots.Indexed)
    (hcount : (panel.records command).countP (creates id) = 0)
    (hkept : ((panel.step command).slots.keyOf id).isSome →
      (panel.slots.keyOf id).isSome ∧ command.Keeps id)
    (hchain : (deliveries id (life id records) ++
      deliveries id (panel.records command)).IsChain (· ≠ ·)) :
    (panel.step command).Informed (records ++ panel.records command) id := by
  have hslot : ∀ {key slot}, (panel.step command).slots.keyOf id = some key →
      (panel.step command).slots.get? key = some slot →
      ∃ before item, panel.slots.keyOf id = some key ∧ panel.slots.get? key = some before ∧
        slot = { before with item }.after id key (panel.records command) := by
    intro key slot hkey hslot
    obtain ⟨hsome, hkeeps⟩ := hkept (by rw [hkey]; rfl)
    obtain ⟨key', hkey'⟩ := Option.isSome_iff_exists.1 hsome
    obtain ⟨before, hbefore, -⟩ := h.resolves hkey'
    obtain ⟨hkey'', -, item, hafter⟩ := slot_step_of_keeps h hkeeps hkey' hbefore
    cases Option.some.inj (hkey.symm.trans hkey'')
    exact ⟨before, item, hkey', hbefore, Option.some.inj (hslot.symm.trans hafter)⟩
  constructor
  case placement =>
    intro key slot hkey hslot'
    obtain ⟨before, item, hkey', hbefore, rfl⟩ := hslot hkey hslot'
    rw [life_append hcount, deliveries_append, List.getLast?_append,
      ← hinformed.placement hkey' hbefore]
    exact lastPlacement_eq id (panel.records command) before.placement
  case control =>
    intro key slot hkey hslot'
    obtain ⟨before, item, hkey', hbefore, rfl⟩ := hslot hkey hslot'
    obtain ⟨serial, made, hmade, hcontrol⟩ := hinformed.control hkey' hbefore
    refine ⟨serial, made, hmade, ?_⟩
    rw [life_append hcount, replay_append, ← hcontrol]
    rfl
  case changing =>
    rw [life_append hcount, deliveries_append]
    exact hchain

theorem idle (hinformed : panel.Informed records id) (h : panel.slots.Indexed)
    (hcount : (panel.records command).countP (creates id) = 0)
    (hkept : ((panel.step command).slots.keyOf id).isSome →
      (panel.slots.keyOf id).isSome ∧ command.Keeps id)
    (hnone : deliveries id (panel.records command) = []) :
    (panel.step command).Informed (records ++ panel.records command) id := by
  refine hinformed.extend h hcount hkept ?_
  rw [hnone, List.append_nil]
  exact hinformed.changing

theorem begin (h : panel.slots.Indexed) (hcontains : input.Contains resolve id)
    (hnew : panel.slots.keyOf id = none) (records : List (PanelRecord γ)) :
    (panel.step (.render resolve input)).Informed
      (records ++ panel.records (.render resolve input)) id := by
  obtain ⟨key, serial, made, hmade, -, hkey, -, hslot⟩ := slot_step_of_new h hcontains hnew
  obtain ⟨hdeliveries, hafter⟩ := life_records_of_new h hcontains hnew records
  rw [hafter] at hslot
  constructor
  case placement =>
    intro key' slot hkey' hslot'
    cases Option.some.inj (hkey.symm.trans hkey')
    cases Option.some.inj (hslot.symm.trans hslot')
    exact (lastPlacement_eq id _ none).trans Option.or_none
  case control =>
    intro key' slot hkey' hslot'
    cases Option.some.inj (hkey.symm.trans hkey')
    cases Option.some.inj (hslot.symm.trans hslot')
    exact ⟨serial, made, hmade, rfl⟩
  case changing =>
    obtain ⟨key', serial', item, -, -, hkey', hslot'⟩ :=
      (allocated_spec h resolve input).opened (mem_present_lineup_iff.2 hcontains) hnew
    rw [hdeliveries, Panel.records, deliveries_told, notices_renderWith h hcontains hkey' hslot']
    exact .singleton _

theorem step (hinformed : panel.Informed records id) (h : panel.slots.Indexed)
    (command : PanelCommand γ) :
    (panel.step command).Informed (records ++ panel.records command) id := by
  cases command with
  | render resolve input =>
      have hsome : ((panel.step (.render resolve input)).slots.keyOf id).isSome ↔
          input.Contains resolve id := isSome_keyOf_step_iff h (.render resolve input)
      by_cases hcontains : input.Contains resolve id
      · cases hkey : panel.slots.keyOf id with
        | none => exact begin h hcontains hkey records
        | some key =>
            obtain ⟨slot, hslot, -⟩ := h.resolves hkey
            have hmem := mem_present_lineup_iff.2 hcontains
            obtain ⟨item, -, hkey', hslot'⟩ :=
              (allocated_spec h resolve input).retained hmem hkey hslot
            have hkeeps : (PanelCommand.render (γ := γ) resolve input).Keeps id := hcontains
            refine hinformed.extend h (slot_step_of_keeps h hkeeps hkey hslot).2.1 ?_ ?_
            · intro _
              exact ⟨by rw [hkey]; rfl, hcontains⟩
            · rw [Panel.records, deliveries_told, notices_renderWith h hcontains hkey' hslot']
              show List.IsChain _ (_ ++ Placement.notice slot.placement _)
              rw [hinformed.placement hkey hslot]
              exact Placement.isChain_append_notice hinformed.changing _
      · refine hinformed.idle h ?_ ?_ ?_
        · rw [Panel.records, countP_creates_renderWith, List.count_eq_zero,
            SlotTable.mem_created_iff]
          exact fun hmem => hcontains (mem_present_lineup_iff.1 hmem.1)
        · exact fun hkey => absurd (hsome.1 hkey) hcontains
        · rw [Panel.records, deliveries_told, notices_renderWith_of_absent h hcontains]
  | edit key change =>
      have hcount : (panel.records (.edit key change)).countP (creates id) = 0 := by
        simp [Panel.records, creates]
      exact hinformed.idle h hcount (fun hkey => ⟨hkey, trivial⟩) rfl
  | report | listen | unlisten =>
      exact hinformed.idle h rfl (fun hkey => ⟨hkey, trivial⟩) rfl

theorem run (hinformed : panel.Informed records id) (h : panel.slots.Indexed)
    (commands : List (PanelCommand γ)) :
    (panel.run commands).Informed (records ++ panel.log commands) id := by
  induction commands generalizing panel records with
  | nil =>
      rw [log, List.append_nil]
      exact hinformed
  | cons command commands ih =>
      rw [log, ← List.append_assoc]
      exact ih (hinformed.step h command) (indexed_step h command)

end Informed

end Panel

end Passes

namespace PanelView

def rowPlaces : PanelView → List (SlotRef × Placement)
  | vertical view => (view.cross ++ view.inScope).map (·, .inline)
  | horizontal view =>
      view.row.map fun entry => (entry.slot, if entry.overflowed then .overflowed else .inline)

/-- All slots that a view shows, the hidden ones of the row twice. -/
def places (view : PanelView) : List (SlotRef × Placement) :=
  view.rowPlaces ++ view.hidden.map (·, .overflowed) ++ view.outOfScope.map (·, .outOfScope)

end PanelView

structure Arranged (lineup : Lineup) (mode : LayoutMode) (overflow : Overflow)
    (table : SlotTable γ) (view : PanelView) : Prop where
  viewMode : view.mode = mode
  rowPlaces : view.rowPlaces = (table.slotRefs lineup.row).map fun ref =>
    (ref, if mode = .horizontal ∧ ref.id ∈ overflow.ids then .overflowed else .inline)
  hidden : ∀ ref ∈ view.hidden,
    ref ∈ table.slotRefs lineup.row ∧ mode = .horizontal ∧ ref.id ∈ overflow.ids
  outOfScope : ∀ ref ∈ view.outOfScope, ref ∈ table.slotRefs lineup.outOfScope

namespace Lineup

variable {lineup : Lineup} {snapshot : Snapshot} {table : SlotTable γ} {overflow : Overflow}

theorem mem_sectionSlots {ref : SlotRef}
    (h : ref ∈ sectionSlots (lineup.outOfScopeSection snapshot table)) :
    ref ∈ table.slotRefs lineup.outOfScope := by
  unfold outOfScopeSection at h
  split at h
  · exact h
  · exact absurd h List.not_mem_nil

theorem rowPlaces_filterMap (lineup : Lineup) (overflow : Overflow) (table : SlotTable γ) :
    (lineup.row.filterMap (lineup.rowEntry? overflow table)).map
        (fun entry => (entry.slot, if entry.overflowed then Placement.overflowed else .inline)) =
      (table.slotRefs lineup.row).map fun ref =>
        (ref, if LayoutMode.horizontal = .horizontal ∧ ref.id ∈ overflow.ids then .overflowed
          else .inline) := by
  rw [SlotTable.slotRefs, List.map_filterMap, List.map_filterMap]
  congr 1
  funext item
  unfold rowEntry? SlotTable.slotRef?
  rw [Option.map_map, Option.map_map, Option.map_map]
  congr 1
  funext key
  simp [Overflow.isOverflowed]

theorem arranged_verticalView (lineup : Lineup) (snapshot : Snapshot) (overflow : Overflow)
    (table : SlotTable γ) :
    Arranged lineup .vertical overflow table (.vertical (lineup.verticalView snapshot table)) where
  viewMode := rfl
  rowPlaces := by
    rw [← cross_append_natives lineup, SlotTable.slotRefs_append]
    rfl
  hidden := fun _ href => absurd href List.not_mem_nil
  outOfScope := fun _ href => mem_sectionSlots href

theorem arranged_horizontalView (lineup : Lineup) (snapshot : Snapshot) (labels : TriggerLabels)
    (overflow : Overflow) (table : SlotTable γ) :
    Arranged lineup .horizontal overflow table
      (.horizontal (lineup.horizontalView snapshot labels overflow table)) where
  viewMode := rfl
  rowPlaces := lineup.rowPlaces_filterMap overflow table
  hidden := by
    intro ref href
    obtain ⟨hrow, hoverflowed⟩ := mem_hidden_horizontalView href
    exact ⟨hrow, rfl, hoverflowed⟩
  outOfScope := by
    intro ref href
    simp only [PanelView.outOfScope, horizontalView, dropdown?] at href
    split at href
    · cases href
    · exact mem_sectionSlots href

end Lineup

namespace Panel

variable [Control γ] {panel : Panel γ} {resolve : ScopeResolver} {input : PanelInput}
  {id : FilterId} {key : SlotKey} {slot : Slot γ}

theorem arranged_renderWith (panel : Panel γ) (resolve : ScopeResolver) (input : PanelInput) :
    Arranged (input.lineup resolve) input.mode (panel.overflowIn resolve input)
      (panel.renderWith resolve input).panel.slots (panel.renderWith resolve input).view := by
  cases hmode : input.mode with
  | vertical =>
      rw [view_renderWith_of_vertical resolve hmode]
      exact Lineup.arranged_verticalView _ _ _ _
  | horizontal =>
      rw [view_renderWith_of_horizontal resolve hmode]
      exact Lineup.arranged_horizontalView _ _ _ _ _

omit [Control γ] in
theorem placementIn_of_mem_row (h : id ∈ (input.lineup resolve).row.map (·.id)) :
    panel.placementIn resolve input id =
      if input.mode = .horizontal ∧ id ∈ (panel.overflowIn resolve input).ids then .overflowed
      else .inline :=
  Lineup.placementOf_of_mem_row h

omit [Control γ] in
theorem placementIn_eq_outOfScope_iff :
    panel.placementIn resolve input id = .outOfScope ↔
      id ∈ (input.lineup resolve).outOfScope.map (·.id) := by
  unfold placementIn Lineup.placementOf
  split
  · simp_all
  · split <;> simp_all

omit [Control γ] in
theorem placementIn_eq_overflowed_iff :
    panel.placementIn resolve input id = .overflowed ↔
      input.mode = .horizontal ∧ id ∈ (panel.overflowIn resolve input).ids := by
  constructor
  · intro hplacement
    unfold placementIn Lineup.placementOf at hplacement
    split at hplacement
    · cases hplacement
    · split at hplacement
      · assumption
      · cases hplacement
  · intro hoverflowed
    rw [placementIn_of_mem_row (panel.mem_row_of_mem_overflowIn _ _ hoverflowed.1 hoverflowed.2),
      if_pos hoverflowed]

theorem mem_places_renderWith {ref : SlotRef} {place : Placement}
    (h : (ref, place) ∈ (panel.renderWith resolve input).view.places) :
    (panel.renderWith resolve input).panel.slots.keyOf ref.id = some ref.key ∧
      place = panel.placementIn resolve input ref.id := by
  have harranged := panel.arranged_renderWith resolve input
  simp only [PanelView.places, List.mem_append, List.mem_map, harranged.rowPlaces,
    Prod.mk.injEq] at h
  rcases h with (⟨_, href, rfl, rfl⟩ | ⟨_, hhidden, rfl, rfl⟩) | ⟨_, hout, rfl, rfl⟩
  · obtain ⟨item, hitem, hkey, hid, -⟩ := SlotTable.mem_slotRefs_iff.1 href
    refine ⟨by rw [hid, hkey], (placementIn_of_mem_row ?_).symm⟩
    rw [hid]
    exact List.mem_map_of_mem hitem
  · obtain ⟨href, hoverflowed⟩ := harranged.hidden _ hhidden
    obtain ⟨item, -, hkey, hid, -⟩ := SlotTable.mem_slotRefs_iff.1 href
    exact ⟨by rw [hid, hkey], (placementIn_eq_overflowed_iff.2 hoverflowed).symm⟩
  · obtain ⟨item, hitem, hkey, hid, -⟩ :=
      SlotTable.mem_slotRefs_iff.1 (harranged.outOfScope _ hout)
    refine ⟨by rw [hid, hkey], (placementIn_eq_outOfScope_iff.2 ?_).symm⟩
    rw [hid]
    exact List.mem_map_of_mem hitem

theorem exists_place_of_mem_row (hkey : (panel.renderWith resolve input).panel.slots.keyOf id =
      some key) (hrow : id ∈ (input.lineup resolve).row.map (·.id)) :
    ∃ ref place, (ref, place) ∈ (panel.renderWith resolve input).view.places ∧ ref.key = key := by
  obtain ⟨item, hitem, rfl⟩ := List.mem_map.1 hrow
  have href : { key, id := item.id, kind := item.kind : SlotRef } ∈
      (panel.renderWith resolve input).panel.slots.slotRefs (input.lineup resolve).row :=
    SlotTable.mem_slotRefs_iff.2 ⟨item, hitem, hkey, rfl, rfl⟩
  have harranged := panel.arranged_renderWith resolve input
  obtain ⟨place, hplace⟩ : ∃ place, ({ key, id := item.id, kind := item.kind : SlotRef }, place) ∈
      (panel.renderWith resolve input).view.rowPlaces := by
    rw [harranged.rowPlaces]
    exact ⟨_, List.mem_map_of_mem href⟩
  exact ⟨_, place, List.mem_append_left _ (List.mem_append_left _ hplace), rfl⟩

end Panel

structure Rendered.Settled [Control γ] (rendered : Rendered γ) (resolve : ScopeResolver)
    (input : PanelInput) (records : List (PanelRecord γ)) : Prop where
  placed : ∀ key slot, rendered.panel.slots.get? key = some slot → slot.placement.isSome
  told : ∀ key slot, rendered.panel.slots.get? key = some slot →
    slot.placement = (deliveries slot.item.id (life slot.item.id records)).getLast?
  control : ∀ key slot, rendered.panel.slots.get? key = some slot →
    ∃ serial item, item.id = slot.item.id ∧ slot.control =
      replay slot.item.id key (life slot.item.id records) (Control.create serial item)
  outOfScope : ∀ key slot, rendered.panel.slots.get? key = some slot →
    (slot.placement = some .outOfScope ↔
      slot.item.id ∈ (input.split resolve).outOfScope.map (·.id) ∧
        slot.item.id ∉ (input.split resolve).inScope.map (·.id))
  overflowed : ∀ key slot, rendered.panel.slots.get? key = some slot →
    (slot.placement = some .overflowed ↔
      rendered.view.mode = .horizontal ∧ slot.item.id ∈ rendered.panel.overflow.ids)
  /-- The view has a slot at its place, as often as it has it; only slots that are out of scope may
  be missing. -/
  shown : ∀ ref place, (ref, place) ∈ rendered.view.places →
    ∃ slot, rendered.panel.slots.get? ref.key = some slot ∧ slot.item.id = ref.id ∧
      slot.placement = some place
  complete : ∀ key slot, rendered.panel.slots.get? key = some slot →
    slot.placement ≠ some .outOfScope →
      ∃ ref place, (ref, place) ∈ rendered.view.places ∧ ref.key = key
  changing : ∀ id, (deliveries id (life id records)).IsChain (· ≠ ·)
  once : ∀ id, (rendered.events.filterMap (PanelEvent.placement? id)).length ≤ 1

open Panel in
/-- Controls are told of their places exactly: whatever happened before a pass, after it every slot
is at the place that its control was told of last, which is where the view has it. -/
theorem settled_renderWith [Control γ] (settings : Settings) (commands : List (PanelCommand γ))
    (resolve : ScopeResolver) (input : PanelInput) :
    (((start settings).run commands).renderWith resolve input).Settled resolve input
      ((start settings : Panel γ).log (commands ++ [.render resolve input])) := by
  have hstart : (start settings : Panel γ).slots.Indexed := SlotTable.indexed_empty
  have hinformed := fun id =>
    (Informed.start settings id).run hstart (commands ++ [.render resolve input])
  rw [run_append, List.nil_append] at hinformed
  have h := indexed_run hstart commands
  generalize (start settings : Panel γ).log (commands ++ [.render resolve input]) = records
    at hinformed ⊢
  generalize (start settings : Panel γ).run commands = panel at h hinformed ⊢
  have hindexed : (panel.renderWith resolve input).panel.slots.Indexed :=
    indexed_step h (.render resolve input)
  have hplacement : ∀ key slot,
      (panel.renderWith resolve input).panel.slots.get? key = some slot →
        slot.placement = some (panel.placementIn resolve input slot.item.id) :=
    fun key slot hslot => placement_renderWith h (hindexed.keyed hslot) hslot
  constructor
  case placed =>
    intro key slot hslot
    rw [hplacement key slot hslot]
    rfl
  case told => exact fun key slot hslot => (hinformed _).placement (hindexed.keyed hslot) hslot
  case control => exact fun key slot hslot => (hinformed _).control (hindexed.keyed hslot) hslot
  case outOfScope =>
    intro key slot hslot
    rw [hplacement key slot hslot, Option.some_inj, placementIn_eq_outOfScope_iff]
    exact Lineup.mem_outOfScope_iff
  case overflowed =>
    intro key slot hslot
    rw [hplacement key slot hslot, Option.some_inj, placementIn_eq_overflowed_iff,
      (panel.arranged_renderWith resolve input).viewMode]
    exact .rfl
  case shown =>
    intro ref place hplace
    obtain ⟨hkey, rfl⟩ := mem_places_renderWith hplace
    obtain ⟨slot, hslot, hid⟩ := hindexed.resolves hkey
    exact ⟨slot, hslot, hid, hid ▸ hplacement _ slot hslot⟩
  case complete =>
    intro key slot hslot hscope
    have hkey := hindexed.keyed hslot
    have hcontains := (isSome_keyOf_renderWith_iff h).1 (by rw [hkey]; rfl)
    have hpresent := mem_present_lineup_iff.2 hcontains
    rw [Lineup.present, List.map_append, List.mem_append] at hpresent
    rcases hpresent with hrow | hout
    · exact exists_place_of_mem_row hkey hrow
    · rw [hplacement key slot hslot, placementIn_eq_outOfScope_iff.2 hout] at hscope
      exact absurd rfl hscope
  case changing => exact fun id => (hinformed id).changing
  case once => exact fun id => length_notices_renderWith h resolve input id

end DashboardFilters
