import DashboardFilters.Proofs.SlotAllocation
import DashboardFilters.Slots.Recorder
import Mathlib.Data.List.Nodup

/-!
The accounts of a slot table. However it was used, its two indexes are inverse to one another, and
the report of an allocation says exactly which ids came, which went, how many stayed and how often
the factory was called.
-/

namespace DashboardFilters

variable {γ : Type}

inductive SlotCommand (γ : Type) where
  | allocate (items : List FilterItem)
  | place (key : SlotKey) (placement : Placement)
  | edit (key : SlotKey) (change : γ → γ)

namespace SlotTable

section Run

variable [Control γ] {table : SlotTable γ}

def step (table : SlotTable γ) : SlotCommand γ → SlotTable γ
  | .allocate items => (table.allocate items).1
  | .place key placement => (table.place key placement).1
  | .edit key change => table.modifyControl key change

def run (table : SlotTable γ) (commands : List (SlotCommand γ)) : SlotTable γ :=
  commands.foldl step table

theorem indexed_place (h : table.Indexed) (key : SlotKey) (placement : Placement) :
    (table.place key placement).1.Indexed := by
  cases hslot : table.get? key with
  | none =>
      rw [place_of_vacant hslot]
      exact h
  | some slot =>
      by_cases hthere : slot.placement = some placement
      · rw [place_of_there hslot hthere]
        exact h
      · rw [place_of_elsewhere hslot hthere]
        exact indexed_modifySlot h key fun _ => rfl

theorem Indexed.step (h : table.Indexed) (command : SlotCommand γ) :
    (table.step command).Indexed := by
  cases command with
  | allocate items => exact (allocated_allocate h items).indexed
  | place key placement => exact indexed_place h key placement
  | edit key change => exact indexed_modifySlot h key fun _ => rfl

theorem Indexed.run (h : table.Indexed) (commands : List (SlotCommand γ)) :
    (table.run commands).Indexed := by
  induction commands generalizing table with
  | nil => exact h
  | cons command commands ih => exact ih (h.step command)

end Run

def ids (table : SlotTable γ) : List FilterId :=
  table.keys.map (·.1)

theorem mem_ids_iff {table : SlotTable γ} {id : FilterId} :
    id ∈ table.ids ↔ (table.keyOf id).isSome := by
  rw [Option.isSome_iff_ne_none, ne_eq, keyOf_eq_none_iff, Decidable.not_not]
  exact .rfl

theorem Indexed.perm_keys {table : SlotTable γ} (h : table.Indexed) :
    (table.entries.map fun entry => (entry.2.item.id, entry.1)).Perm table.keys := by
  have hkeys : table.keys.Nodup := h.nodup.of_map
  have hentries : (table.entries.map fun entry => (entry.2.item.id, entry.1)).Nodup := by
    have hslots : ((table.entries.map fun entry => (entry.2.item.id, entry.1)).map (·.2)).Nodup := by
      rw [List.map_map]
      exact table.slots.nodup_keys_entries
    exact hslots.of_map
  rw [List.perm_ext_iff_of_nodup hentries hkeys]
  rintro ⟨id, key⟩
  rw [h.mem_keys_iff, List.mem_map]
  constructor
  · rintro ⟨⟨key, slot⟩, hentry, heq⟩
    cases heq
    exact h.keyed (Arena.mem_entries_iff.1 hentry)
  · intro hkey
    obtain ⟨slot, hslot, rfl⟩ := h.resolves hkey
    exact ⟨(key, slot), Arena.mem_entries_iff.2 hslot, rfl⟩

theorem Indexed.size_eq {table : SlotTable γ} (h : table.Indexed) :
    table.size = table.ids.length := by
  have hlength := h.perm_keys.length_eq
  rw [List.length_map] at hlength
  rw [ids, List.length_map]
  exact hlength

/-- From ids to keys and back, with nothing left over on either side. -/
structure Mirrored (table : SlotTable γ) : Prop where
  keyOf_eq_some_iff : ∀ id key, table.keyOf id = some key ↔
    ∃ slot, table.get? key = some slot ∧ slot.item.id = id
  keyOf_injective : ∀ id other key, table.keyOf id = some key → table.keyOf other = some key →
    id = other
  nodup_ids : table.ids.Nodup
  mem_ids_iff : ∀ id, id ∈ table.ids ↔ (table.keyOf id).isSome
  size_eq : table.size = table.ids.length

theorem Indexed.mirrored {table : SlotTable γ} (h : table.Indexed) : table.Mirrored where
  keyOf_eq_some_iff := by
    intro id key
    constructor
    · exact h.resolves
    · rintro ⟨slot, hslot, rfl⟩
      exact h.keyed hslot
  keyOf_injective := fun _ _ _ => h.keyOf_injective
  nodup_ids := h.nodup
  mem_ids_iff := fun _ => mem_ids_iff
  size_eq := h.size_eq

section Report

variable [Control γ] {table : SlotTable γ}

theorem ids_enroll (state : SlotTable γ × Allocation) (item : FilterItem) :
    (enroll state item).1.ids =
      state.1.ids ++ if (state.1.keyOf item.id).isNone then [item.id] else [] := by
  obtain ⟨table, allocation⟩ := state
  cases hkey : table.keyOf item.id with
  | none => simp [enroll_of_new hkey, openSlot, ids]
  | some key =>
      obtain ⟨slots, retained, henroll⟩ := exists_enroll_of_keyOf hkey allocation
      simp [henroll, ids]

theorem ids_foldl_enroll {old : List FilterId} (items : List FilterItem)
    {state : SlotTable γ × Allocation} (h : state.1.ids = old ++ state.2.created) :
    (items.foldl enroll state).1.ids = old ++ (items.foldl enroll state).2.created := by
  induction items generalizing state with
  | nil => exact h
  | cons item items ih =>
      apply ih
      rw [ids_enroll, created_enroll, h, List.append_assoc]

theorem retained_enroll (h : table.Indexed) (allocation : Allocation) (item : FilterItem) :
    (enroll (table, allocation) item).2.retained +
        (enroll (table, allocation) item).2.created.length =
      allocation.retained + allocation.created.length + 1 := by
  cases hkey : table.keyOf item.id with
  | none => simp [enroll_of_new hkey, Nat.add_assoc]
  | some key => simp [h.enroll_of_keyOf hkey, Nat.add_right_comm]

/-- Every item counts: its id is reported as new or counted as retained. -/
theorem retained_foldl_enroll (h : table.Indexed) (items : List FilterItem)
    (allocation : Allocation) :
    (items.foldl enroll (table, allocation)).2.retained +
        (items.foldl enroll (table, allocation)).2.created.length =
      allocation.retained + allocation.created.length + items.length := by
  induction items generalizing table allocation with
  | nil => rfl
  | cons item items ih =>
      have hnext := (enrollment_enroll h allocation item).indexed
      rw [List.foldl_cons, ih hnext, retained_enroll h, List.length_cons]
      omega

theorem count_foldl_enroll {before : Nat} (items : List FilterItem)
    {state : SlotTable γ × Allocation} (h : state.1.created = before + state.2.created.length) :
    (items.foldl enroll state).1.created =
      before + (items.foldl enroll state).2.created.length := by
  induction items generalizing state with
  | nil => exact h
  | cons item items ih =>
      apply ih
      obtain ⟨table, allocation⟩ := state
      cases hkey : table.keyOf item.id with
      | none =>
          simp only [enroll_of_new hkey, openSlot, List.length_append, List.length_singleton]
          rw [show table.created = _ from h, Nat.add_assoc]
      | some key =>
          obtain ⟨slots, retained, henroll⟩ := exists_enroll_of_keyOf hkey allocation
          rw [henroll]
          exact h

omit [Control γ] in
theorem ids_releaseOthers (table : SlotTable γ) (listed : List FilterId) :
    (table.releaseOthers listed).1.ids = table.ids.filter fun id => listed.contains id := by
  rw [ids, ids, List.filter_map]
  rfl

omit [Control γ] in
theorem released_releaseOthers (table : SlotTable γ) (listed : List FilterId) :
    (table.releaseOthers listed).2 = table.ids.filter fun id => !listed.contains id := by
  rw [ids, List.filter_map]
  rfl

theorem ids_enrolled (table : SlotTable γ) (items : List FilterItem) :
    ((distinctBy (·.id) items).foldl enroll (table, {})).1.ids =
      table.ids ++ (table.allocate items).2.created := by
  have hstart : (table, ({} : Allocation)).1.ids = table.ids ++ ({} : Allocation).created :=
    (List.append_nil _).symm
  exact ids_foldl_enroll _ hstart

theorem contains_of_mem_created {items : List FilterItem} {id : FilterId}
    (h : id ∈ (table.allocate items).2.created) : (items.map (·.id)).contains id = true :=
  List.contains_iff_mem.2 (mem_created_iff.1 h).1

theorem ids_allocate (table : SlotTable γ) (items : List FilterItem) :
    (table.allocate items).1.ids =
      (table.ids.filter fun id => (items.map (·.id)).contains id) ++
        (table.allocate items).2.created := by
  rw [allocate_fst, ids_releaseOthers, ids_enrolled, List.filter_append]
  simp only [contains_map_distinctBy]
  rw [List.filter_eq_self.2 fun id hid => contains_of_mem_created hid]

theorem released_allocate (table : SlotTable γ) (items : List FilterItem) :
    (table.allocate items).2.released =
      table.ids.filter fun id => !(items.map (·.id)).contains id := by
  have hreleased : (table.allocate items).2.released =
      (((distinctBy (·.id) items).foldl enroll (table, {})).1.releaseOthers
        ((distinctBy (·.id) items).map (·.id))).2 := rfl
  rw [hreleased, released_releaseOthers, ids_enrolled, List.filter_append]
  simp only [contains_map_distinctBy]
  have hkept : ((table.allocate items).2.created.filter fun id =>
      !(items.map (·.id)).contains id) = [] := by
    rw [List.filter_eq_nil_iff]
    intro id hid
    rw [contains_of_mem_created hid]
    exact Bool.false_ne_true
  rw [hkept, List.append_nil]

theorem mem_ids_allocate_iff {items : List FilterItem} {id : FilterId} :
    id ∈ (table.allocate items).1.ids ↔ id ∈ items.map (·.id) := by
  rw [ids_allocate, List.mem_append, List.mem_filter, List.contains_iff_mem, mem_created_iff,
    mem_ids_iff]
  constructor
  · rintro (⟨-, hid⟩ | ⟨hid, -⟩) <;> exact hid
  · intro hid
    cases hkey : table.keyOf id with
    | none => exact .inr ⟨hid, rfl⟩
    | some key => exact .inl ⟨rfl, hid⟩

theorem size_allocate (h : table.Indexed) (items : List FilterItem) :
    (table.allocate items).1.size =
      (table.allocate items).2.retained + (table.allocate items).2.created.length := by
  have hafter := (allocated_allocate h items).indexed
  have hperm : (table.allocate items).1.ids.Perm ((distinctBy (·.id) items).map (·.id)) := by
    refine (List.perm_ext_iff_of_nodup hafter.nodup (nodup_map_distinctBy _ _)).2 fun id => ?_
    rw [mem_map_distinctBy]
    exact mem_ids_allocate_iff
  have hcount := retained_foldl_enroll h (distinctBy (·.id) items) {}
  rw [hafter.size_eq, hperm.length_eq, List.length_map]
  exact (hcount.trans (Nat.zero_add _)).symm

theorem retained_allocate (h : table.Indexed) (items : List FilterItem) :
    (table.allocate items).2.retained =
      (table.ids.filter fun id => (items.map (·.id)).contains id).length := by
  have hsize := size_allocate h items
  rw [(allocated_allocate h items).indexed.size_eq, ids_allocate, List.length_append] at hsize
  exact (Nat.add_right_cancel hsize).symm

theorem size_before_allocate (h : table.Indexed) (items : List FilterItem) :
    table.size = (table.allocate items).2.retained + (table.allocate items).2.released.length := by
  rw [h.size_eq, retained_allocate h, released_allocate]
  exact List.length_eq_length_filter_add _

theorem count_allocate (table : SlotTable γ) (items : List FilterItem) :
    (table.allocate items).1.created =
      table.created + (table.allocate items).2.created.length := by
  have hstart : (table, ({} : Allocation)).1.created = table.created + 0 := rfl
  exact count_foldl_enroll (distinctBy (·.id) items) hstart

end Report

/-! Factories that keep something of their own, which every call may read and change. An allocation
calls the factory for each id that is new to the table, on the first item of the id. -/

section Factories

variable {φ : Type} {factory : FilterItem → StateM φ γ} {table : SlotTable γ}

def openSlotBy (factory : FilterItem → StateM φ γ) (table : SlotTable γ) (item : FilterItem) :
    StateM φ (SlotTable γ) := do
  let control ← factory item
  return {
    slots := table.slots.insert { item, control }
    keys := table.keys ++ [(item.id, table.slots.nextKey)]
    created := table.created + 1 }

def enrollBy (factory : FilterItem → StateM φ γ) (state : SlotTable γ × Allocation)
    (item : FilterItem) : StateM φ (SlotTable γ × Allocation) :=
  let (table, allocation) := state
  match table.keyOf item.id with
  | some key =>
      match table.get? key with
      | some _ =>
          return (table.renew key item, { allocation with retained := allocation.retained + 1 })
      | none => return (table, allocation)
  | none =>
      return (← table.openSlotBy factory item,
        { allocation with created := allocation.created ++ [item.id] })

def allocateBy (factory : FilterItem → StateM φ γ) (table : SlotTable γ)
    (items : List FilterItem) : StateM φ (SlotTable γ × Allocation) := do
  let items := distinctBy (·.id) items
  let (table, allocation) ← items.foldlM (enrollBy factory) (table, {})
  let (table, released) := table.releaseOthers (items.map (·.id))
  return (table, { allocation with released })

theorem keyOf_enrollBy (state : SlotTable γ × Allocation) {item : FilterItem} {id : FilterId}
    (hne : id ≠ item.id) (kept : φ) :
    ((enrollBy factory state item).run kept).1.1.keyOf id = state.1.keyOf id := by
  obtain ⟨table, allocation⟩ := state
  cases hkey : table.keyOf item.id with
  | some key =>
      simp only [enrollBy, hkey]
      split <;> rfl
  | none =>
      have happend : ((enrollBy factory (table, allocation) item).run kept).1.1.keyOf id =
          (table.keys ++ [(item.id, table.slots.nextKey)]).lookup id := by
        simp only [enrollBy, hkey, openSlotBy, StateT.run_bind, StateT.run_pure]
        rfl
      have hid : (id == item.id) = false := beq_eq_false_iff_ne.2 hne
      rw [happend, List.lookup_append, List.lookup_cons, hid, List.lookup_nil, Option.or_none]
      rfl

theorem calls_enrollBy (state : SlotTable γ × Allocation) (item : FilterItem) (kept : φ) :
    ((enrollBy factory state item).run kept).2 =
      if (state.1.keyOf item.id).isNone then ((factory item).run kept).2 else kept := by
  obtain ⟨table, allocation⟩ := state
  cases hkey : table.keyOf item.id with
  | some key =>
      simp only [enrollBy, hkey]
      split <;> rfl
  | none => simp only [enrollBy, hkey, openSlotBy]; rfl

theorem calls_foldlM_enrollBy {items : List FilterItem} (hnodup : (items.map (·.id)).Nodup)
    (state : SlotTable γ × Allocation) (kept : φ) :
    ((items.foldlM (enrollBy factory) state).run kept).2 =
      (items.filter fun item => (state.1.keyOf item.id).isNone).foldl
        (fun kept item => ((factory item).run kept).2) kept := by
  induction items generalizing state kept with
  | nil => rfl
  | cons item items ih =>
      obtain ⟨hitem, hitems⟩ := List.nodup_cons.1 hnodup
      obtain ⟨⟨next, kept'⟩, hnext⟩ : ∃ pair, (enrollBy factory state item).run kept = pair :=
        ⟨_, rfl⟩
      have hrest : (items.filter fun item => (next.1.keyOf item.id).isNone) =
          items.filter fun item => (state.1.keyOf item.id).isNone := by
        apply List.filter_congr
        intro other hother
        have hne : other.id ≠ item.id :=
          fun heq => hitem (List.mem_map.2 ⟨other, hother, heq⟩)
        rw [← keyOf_enrollBy state hne kept, hnext]
      have hcalls : ((enrollBy factory state item).run kept).2 = _ :=
        calls_enrollBy state item kept
      rw [hnext] at hcalls
      have hfold : ((item :: items).foldlM (enrollBy factory) state).run kept =
          (items.foldlM (enrollBy factory) next).run kept' := by
        rw [List.foldlM_cons, StateT.run_bind, hnext]
        rfl
      rw [hfold, ih hitems, hrest, show kept' = _ from hcalls, List.filter_cons]
      split <;> rfl

def openings (table : SlotTable γ) (items : List FilterItem) : List FilterItem :=
  (distinctBy (·.id) items).filter fun item => (table.keyOf item.id).isNone

theorem calls_allocateBy (factory : FilterItem → StateM φ γ) (table : SlotTable γ)
    (items : List FilterItem) (kept : φ) :
    ((table.allocateBy factory items).run kept).2 =
      (table.openings items).foldl (fun kept item => ((factory item).run kept).2) kept := by
  have hrun : ((table.allocateBy factory items).run kept).2 =
      (((distinctBy (·.id) items).foldlM (enrollBy factory) (table, {})).run kept).2 := by
    simp only [allocateBy, StateT.run_bind]
    rfl
  rw [hrun, calls_foldlM_enrollBy (nodup_map_distinctBy _ _)]
  rfl

theorem find?_of_mem_openings {items : List FilterItem} {item : FilterItem}
    (h : item ∈ table.openings items) : items.find? (·.id = item.id) = some item := by
  have hdistinct := (List.mem_filter.1 h).1
  obtain ⟨first, hfirst, hid, hfind⟩ :=
    exists_first (mem_map_distinctBy.1 (List.mem_map_of_mem (f := (·.id)) hdistinct))
  have hsame : first = item :=
    List.inj_on_of_nodup_map (nodup_map_distinctBy _ _) hfirst hdistinct hid
  rw [hfind, hsame]

variable [Control γ]

theorem map_id_openings (table : SlotTable γ) (items : List FilterItem) :
    (table.openings items).map (·.id) = (table.allocate items).2.created := by
  rw [created_allocate, openings, List.filter_map]
  rfl

def numbering (item : FilterItem) : StateM Nat γ :=
  modifyGet fun calls => (Control.create (calls + 1) item, calls + 1)

theorem enrollBy_numbering (state : SlotTable γ × Allocation) (item : FilterItem) :
    (enrollBy numbering state item).run state.1.created =
      (enroll state item, (enroll state item).1.created) := by
  obtain ⟨table, allocation⟩ := state
  cases hkey : table.keyOf item.id with
  | some key => cases hslot : table.get? key <;> simp only [enrollBy, enroll, hkey, hslot] <;> rfl
  | none => simp only [enrollBy, enroll, hkey]; rfl

theorem foldlM_enrollBy_numbering (items : List FilterItem) (state : SlotTable γ × Allocation) :
    (items.foldlM (enrollBy numbering) state).run state.1.created =
      (items.foldl enroll state, (items.foldl enroll state).1.created) := by
  induction items generalizing state with
  | nil => rfl
  | cons item items ih =>
      rw [List.foldlM_cons, StateT.run_bind, enrollBy_numbering]
      exact ih (enroll state item)

theorem allocateBy_numbering (table : SlotTable γ) (items : List FilterItem) :
    (table.allocateBy numbering items).run table.created =
      (table.allocate items, (table.allocate items).1.created) := by
  have hfold := foldlM_enrollBy_numbering (distinctBy (·.id) items) (table, {})
  simp only [allocateBy, StateT.run_bind]
  rw [hfold]
  rfl

end Factories

section Accounts

variable [Control γ] {table : SlotTable γ}

structure Accounted (table : SlotTable γ) (items : List FilterItem)
    (result : SlotTable γ × Allocation) : Prop where
  keyed_iff : ∀ id, (result.1.keyOf id).isSome ↔ id ∈ items.map (·.id)
  first_items : ∀ key slot, result.1.get? key = some slot →
    items.find? (·.id = slot.item.id) = some slot.item
  created_iff : ∀ id, id ∈ result.2.created ↔ id ∈ items.map (·.id) ∧ table.keyOf id = none
  created_in_order : result.2.created.Pairwise fun id other =>
    (items.map (·.id)).idxOf id < (items.map (·.id)).idxOf other
  released_iff : ∀ id, id ∈ result.2.released ↔
    (table.keyOf id).isSome ∧ id ∉ items.map (·.id)
  nodup_released : result.2.released.Nodup
  size_after : result.1.size = result.2.retained + result.2.created.length
  size_before : table.size = result.2.retained + result.2.released.length
  count_eq : result.1.created = table.created + result.2.created.length
  /-- The table goes by a factory that numbers its controls, and the count of the table is that of
  the calls of this factory. -/
  numbered : (table.allocateBy numbering items).run table.created = (result, result.1.created)
  /-- Any factory is called once for each new id, in the order of the report. -/
  called : ∃ firsts : List FilterItem, firsts.map (·.id) = result.2.created ∧
    (∀ item ∈ firsts, items.find? (·.id = item.id) = some item) ∧
      ∀ {φ : Type} (factory : FilterItem → StateM φ γ) (kept : φ),
        ((table.allocateBy factory items).run kept).2 =
          firsts.foldl (fun kept item => ((factory item).run kept).2) kept
  untouched : ∀ id key slot, id ∈ items.map (·.id) → table.keyOf id = some key →
    table.get? key = some slot →
      result.1.keyOf id = some key ∧ ∃ item, result.1.get? key = some { slot with item }

theorem accounted_allocate (h : table.Indexed) (items : List FilterItem) :
    table.Accounted items (table.allocate items) where
  keyed_iff := by
    intro id
    rw [← mem_ids_iff]
    exact mem_ids_allocate_iff
  first_items := by
    intro key slot hslot
    have hallocated := allocated_allocate h items
    have hkey := hallocated.indexed.keyed hslot
    have hid : slot.item.id ∈ items.map (·.id) := by
      have hmem : slot.item.id ∈ (table.allocate items).1.ids := by
        rw [mem_ids_iff, hkey]
        rfl
      exact mem_ids_allocate_iff.1 hmem
    cases hold : table.keyOf slot.item.id with
    | none =>
        obtain ⟨key', serial, item, hitem, -, hkey', hslot'⟩ := hallocated.opened hid hold
        rw [hkey] at hkey'
        cases hkey'
        rw [hslot] at hslot'
        cases hslot'
        exact hitem
    | some key' =>
        obtain ⟨slot', hslot', -⟩ := h.resolves hold
        obtain ⟨item, hitem, hkey', hafter⟩ := hallocated.retained hid hold hslot'
        rw [hkey] at hkey'
        cases hkey'
        rw [hslot] at hafter
        cases hafter
        exact hitem
  created_iff := fun _ => mem_created_iff
  created_in_order := by
    rw [created_allocate]
    exact (pairwise_distinctBy (·.id) items).sublist List.filter_sublist
  released_iff := by
    intro id
    rw [released_allocate, List.mem_filter, mem_ids_iff, Bool.not_eq_true',
      ← Bool.not_eq_true, List.contains_iff_mem]
  nodup_released := by
    rw [released_allocate]
    exact h.nodup.filter _
  size_after := size_allocate h items
  size_before := size_before_allocate h items
  count_eq := count_allocate table items
  numbered := allocateBy_numbering table items
  called := ⟨table.openings items, map_id_openings table items,
    fun _ hitem => find?_of_mem_openings hitem, fun factory kept =>
      calls_allocateBy factory table items kept⟩
  untouched := by
    intro id key slot hid hkey hslot
    obtain ⟨item, -, hkey', hslot'⟩ := (allocated_allocate h items).retained hid hkey hslot
    exact ⟨hkey', item, hslot'⟩

end Accounts

end SlotTable

open SlotTable

/-- However a table was used, its indexes are inverse to one another, the next allocation does
exactly what it reports, and a key that does not resolve can be placed nowhere. -/
theorem accounted_run [Control γ] (commands : List (SlotCommand γ)) :
    let table := (∅ : SlotTable γ).run commands
    table.Mirrored ∧ (∀ items, table.Accounted items (table.allocate items)) ∧
      ∀ key, table.get? key = none →
        ∀ placement, table.place key placement = (table, false) := by
  intro table
  have hindexed : table.Indexed := indexed_empty.run commands
  refine ⟨hindexed.mirrored, ?_, ?_⟩
  · exact fun items => accounted_allocate hindexed items
  · exact fun key hvacant placement => place_of_vacant hvacant placement

/-- The key of the released filter is stale, though its position has another occupant. -/
theorem accounted_run_of_stale :
    let items : List String → List FilterItem := fun ids => ids.map fun id =>
      { id := ⟨id⟩, kind := .native, name := id, order := 0, requiredFirst := false,
        hasValue := false }
    let commands : List (SlotCommand ControlRecord) :=
      [.allocate (items ["a", "b", "a"]), .place { position := 0, generation := 1 } .inline,
        .allocate (items ["b"]), .allocate (items ["c", "b", "c"])]
    let table := (∅ : SlotTable ControlRecord).run commands
    let stale : SlotKey := { position := 0, generation := 1 }
    table.keyOf ⟨"c"⟩ = some { position := 0, generation := 2 } ∧
      table.get? stale = none ∧ table.place stale .overflowed = (table, false) := by
  intro items commands table stale
  have hstale : table.get? stale = none := rfl
  exact ⟨rfl, hstale, (accounted_run commands).2.2 stale hstale .overflowed⟩

end DashboardFilters
