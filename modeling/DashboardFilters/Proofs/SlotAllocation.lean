import DashboardFilters.Proofs.ArenaKeys
import DashboardFilters.Proofs.FirstEntries
import DashboardFilters.Slots

namespace DashboardFilters

variable {γ : Type}

/-! The two indexes of a slot table agree, and what an allocation does to them. -/

namespace SlotTable

/-- An id has a key exactly when the key resolves to a slot of the id. -/
structure Indexed (table : SlotTable γ) : Prop where
  nodup : (table.keys.map (·.1)).Nodup
  resolves : ∀ {id key}, table.keyOf id = some key →
    ∃ slot, table.get? key = some slot ∧ slot.item.id = id
  keyed : ∀ {key slot}, table.get? key = some slot → table.keyOf slot.item.id = some key

theorem indexed_empty : (∅ : SlotTable γ).Indexed where
  nodup := List.nodup_nil
  resolves := by
    intro id key hkey
    cases hkey
  keyed := by
    intro key slot hslot
    cases hslot

theorem Indexed.keyOf_injective {table : SlotTable γ} (h : table.Indexed) {id other : FilterId}
    {key : SlotKey} (hid : table.keyOf id = some key) (hother : table.keyOf other = some key) :
    id = other := by
  obtain ⟨slot, hslot, rfl⟩ := h.resolves hid
  obtain ⟨slot', hslot', rfl⟩ := h.resolves hother
  rw [hslot] at hslot'
  cases hslot'
  rfl

theorem Indexed.issued {table : SlotTable γ} (h : table.Indexed) {id : FilterId} {key : SlotKey}
    (hkey : table.keyOf id = some key) : table.slots.Issued key := by
  obtain ⟨slot, hslot, -⟩ := h.resolves hkey
  exact Arena.issued_of_get? hslot

theorem keyOf_eq_none_iff {table : SlotTable γ} {id : FilterId} :
    table.keyOf id = none ↔ id ∉ table.keys.map (·.1) := by
  rw [keyOf, List.lookup_eq_none_iff]
  constructor
  · intro h hmem
    obtain ⟨entry, hentry, rfl⟩ := List.mem_map.1 hmem
    simpa using h entry hentry
  · intro h entry hentry
    have hne : id ≠ entry.1 := fun heq => h (heq ▸ List.mem_map_of_mem hentry)
    simpa using hne

theorem keyOf_openSlot [Control γ] {table : SlotTable γ} {item : FilterItem} (id : FilterId)
    (hnew : table.keyOf item.id = none) :
    (table.openSlot item).keyOf id =
      if id = item.id then some table.slots.nextKey else table.keyOf id := by
  have happend : (table.openSlot item).keyOf id =
      (table.keyOf id).or (List.lookup id [(item.id, table.slots.nextKey)]) :=
    List.lookup_append
  rw [happend]
  by_cases hid : id = item.id
  · subst hid
    simp [hnew]
  · have hne : (id == item.id) = false := by simpa using hid
    simp [List.lookup_cons, hne, hid]

theorem get?_openSlot [Control γ] (table : SlotTable γ) (item : FilterItem) (key : SlotKey) :
    (table.openSlot item).get? key =
      if key = table.slots.nextKey then
        some { item, control := Control.create (table.created + 1) item }
      else table.get? key :=
  Arena.get?_insert _ _ _

theorem Indexed.keyOf_ne_nextKey {table : SlotTable γ} (h : table.Indexed) {id : FilterId}
    {key : SlotKey} (hkey : table.keyOf id = some key) : key ≠ table.slots.nextKey := by
  intro heq
  exact table.slots.not_issued_nextKey (heq ▸ h.issued hkey)

theorem indexed_openSlot [Control γ] {table : SlotTable γ} {item : FilterItem} (h : table.Indexed)
    (hnew : table.keyOf item.id = none) : (table.openSlot item).Indexed where
  nodup := by
    have hfresh := keyOf_eq_none_iff.1 hnew
    show ((table.keys ++ [(item.id, table.slots.nextKey)]).map (·.1)).Nodup
    rw [List.map_append, List.nodup_append]
    refine ⟨h.nodup, List.nodup_cons.2 ⟨List.not_mem_nil, List.nodup_nil⟩, ?_⟩
    intro id hid other hother heq
    rw [heq, List.mem_singleton.1 hother] at hid
    exact hfresh hid
  resolves := by
    intro id key hkey
    rw [keyOf_openSlot id hnew] at hkey
    rw [get?_openSlot]
    split at hkey
    · rename_i hid
      cases hkey
      rw [if_pos rfl]
      exact ⟨_, rfl, hid.symm⟩
    · rw [if_neg (h.keyOf_ne_nextKey hkey)]
      exact h.resolves hkey
  keyed := by
    intro key slot hslot
    rw [get?_openSlot] at hslot
    rw [keyOf_openSlot _ hnew]
    split at hslot
    · rename_i hkey
      cases hslot
      simp [hkey]
    · have hkey := h.keyed hslot
      have hne : slot.item.id ≠ item.id := by
        intro heq
        rw [heq, hnew] at hkey
        cases hkey
      rw [if_neg hne, hkey]

theorem get?_renew (table : SlotTable γ) (key other : SlotKey) (item : FilterItem) :
    (table.renew key item).get? other =
      if other = key then (table.get? other).map fun slot => { slot with item }
      else table.get? other :=
  Arena.get?_modify _ _ _ _

theorem keyOf_renew (table : SlotTable γ) (key : SlotKey) (item : FilterItem) (id : FilterId) :
    (table.renew key item).keyOf id = table.keyOf id := rfl

theorem indexed_renew {table : SlotTable γ} {item : FilterItem} {key : SlotKey} (h : table.Indexed)
    (hkey : table.keyOf item.id = some key) : (table.renew key item).Indexed where
  nodup := h.nodup
  resolves := by
    intro id other hother
    rw [keyOf_renew] at hother
    obtain ⟨slot, hslot, hid⟩ := h.resolves hother
    rw [get?_renew, hslot]
    split
    · rename_i heq
      subst heq
      exact ⟨_, rfl, h.keyOf_injective hkey hother⟩
    · exact ⟨slot, rfl, hid⟩
  keyed := by
    intro other slot hslot
    rw [get?_renew] at hslot
    rw [keyOf_renew]
    split at hslot
    · rename_i heq
      obtain ⟨slot', -, rfl⟩ := Option.map_eq_some_iff.1 hslot
      rw [heq]
      exact hkey
    · exact h.keyed hslot

def modifySlot (table : SlotTable γ) (key : SlotKey) (f : Slot γ → Slot γ) : SlotTable γ :=
  { table with slots := table.slots.modify key f }

theorem get?_modifySlot (table : SlotTable γ) (key other : SlotKey) (f : Slot γ → Slot γ) :
    (table.modifySlot key f).get? other =
      if other = key then (table.get? other).map f else table.get? other :=
  Arena.get?_modify _ _ _ _

theorem indexed_modifySlot {table : SlotTable γ} (h : table.Indexed) (key : SlotKey)
    {f : Slot γ → Slot γ} (hf : ∀ slot, (f slot).item = slot.item) :
    (table.modifySlot key f).Indexed where
  nodup := h.nodup
  resolves := by
    intro id other hother
    obtain ⟨slot, hslot, hid⟩ := h.resolves hother
    rw [get?_modifySlot, hslot]
    split
    · exact ⟨f slot, rfl, by rw [hf, hid]⟩
    · exact ⟨slot, rfl, hid⟩
  keyed := by
    intro other slot' hslot'
    rw [get?_modifySlot] at hslot'
    split at hslot'
    · obtain ⟨slot, hslot, rfl⟩ := Option.map_eq_some_iff.1 hslot'
      rw [hf]
      exact h.keyed hslot
    · exact h.keyed hslot'

end SlotTable

def Slot.shownAt [Control γ] (placement : Placement) (slot : Slot γ) : Slot γ :=
  { slot with
    placement := some placement
    control := Control.setPlacement placement slot.control }

namespace SlotTable

section Place

variable [Control γ] {table : SlotTable γ} {key : SlotKey} {placement : Placement} {slot : Slot γ}

theorem place_of_vacant (hvacant : table.get? key = none) (placement : Placement) :
    table.place key placement = (table, false) := by
  simp only [place, hvacant]

theorem place_of_there (hslot : table.get? key = some slot)
    (hthere : slot.placement = some placement) : table.place key placement = (table, false) := by
  simp only [place, hslot, hthere, if_true]

theorem place_of_elsewhere (hslot : table.get? key = some slot)
    (helsewhere : slot.placement ≠ some placement) :
    table.place key placement = (table.modifySlot key (Slot.shownAt placement), true) := by
  simp only [place, hslot, helsewhere, if_false]
  rfl

end Place

section Enrollment

variable [Control γ]

structure Enrollment (table : SlotTable γ) (items : List FilterItem) (table' : SlotTable γ) :
    Prop where
  indexed : table'.Indexed
  kept : ∀ {id key}, table.keyOf id = some key → table'.keyOf id = some key
  unlisted : ∀ {id}, id ∉ items.map (·.id) → table'.keyOf id = table.keyOf id
  renewed : ∀ {item key slot}, item ∈ items → table.keyOf item.id = some key →
    table.get? key = some slot → table'.get? key = some { slot with item }
  untouched : ∀ {key slot}, table.get? key = some slot → slot.item.id ∉ items.map (·.id) →
    table'.get? key = some slot
  opened : ∀ {item}, item ∈ items → table.keyOf item.id = none → ∃ key serial,
    ¬ table.slots.Issued key ∧ table'.keyOf item.id = some key ∧
      table'.get? key = some { item, control := Control.create serial item }
  issued : ∀ {key}, table.slots.Issued key → table'.slots.Issued key
  retired : ∀ {key}, table.slots.Retired key → table'.slots.Retired key

theorem Enrollment.refl {table : SlotTable γ} (h : table.Indexed) : Enrollment table [] table where
  indexed := h
  kept := fun hkey => hkey
  unlisted := fun _ => rfl
  renewed := fun hitem => absurd hitem List.not_mem_nil
  untouched := fun hslot _ => hslot
  opened := fun hitem => absurd hitem List.not_mem_nil
  issued := fun hissued => hissued
  retired := fun hretired => hretired

theorem enrollment_renew {table : SlotTable γ} {item : FilterItem} {key : SlotKey}
    (h : table.Indexed) (hkey : table.keyOf item.id = some key) :
    Enrollment table [item] (table.renew key item) where
  indexed := indexed_renew h hkey
  kept := fun hkey => hkey
  unlisted := fun _ => rfl
  renewed := by
    intro other otherKey slot hother hotherKey hslot
    cases List.mem_singleton.1 hother
    rw [hkey] at hotherKey
    cases hotherKey
    rw [get?_renew, if_pos rfl, hslot]
    rfl
  untouched := by
    intro otherKey slot hslot hid
    have hne : otherKey ≠ key := by
      intro heq
      subst heq
      have hids := h.keyOf_injective (h.keyed hslot) hkey
      exact hid (by simp [hids])
    rw [get?_renew, if_neg hne, hslot]
  opened := by
    intro other hother hnone
    cases List.mem_singleton.1 hother
    rw [hkey] at hnone
    cases hnone
  issued := Arena.issued_modify.2
  retired := Arena.Retired.modify

theorem enrollment_openSlot {table : SlotTable γ} {item : FilterItem} (h : table.Indexed)
    (hnew : table.keyOf item.id = none) : Enrollment table [item] (table.openSlot item) where
  indexed := indexed_openSlot h hnew
  kept := by
    intro id key hkey
    have hne : id ≠ item.id := by
      intro heq
      rw [heq, hnew] at hkey
      cases hkey
    rw [keyOf_openSlot id hnew, if_neg hne, hkey]
  unlisted := by
    intro id hid
    rw [keyOf_openSlot id hnew, if_neg fun heq => hid (by simp [heq])]
  renewed := by
    intro other key slot hother hkey
    cases List.mem_singleton.1 hother
    rw [hnew] at hkey
    cases hkey
  untouched := by
    intro key slot hslot _
    rw [get?_openSlot, if_neg (h.keyOf_ne_nextKey (h.keyed hslot)), hslot]
  opened := by
    intro other hother _
    cases List.mem_singleton.1 hother
    refine ⟨table.slots.nextKey, table.created + 1, table.slots.not_issued_nextKey, ?_, ?_⟩
    · rw [keyOf_openSlot _ hnew, if_pos rfl]
    · rw [get?_openSlot, if_pos rfl]
  issued := fun hissued => Arena.issued_insert.2 (.inl hissued)
  retired := Arena.Retired.insert

theorem Enrollment.cons {table mid table' : SlotTable γ} {item : FilterItem}
    {items : List FilterItem} (h : table.Indexed) (hfirst : Enrollment table [item] mid)
    (hrest : Enrollment mid items table') (hnodup : item.id ∉ items.map (·.id)) :
    Enrollment table (item :: items) table' where
  indexed := hrest.indexed
  kept := fun hkey => hrest.kept (hfirst.kept hkey)
  unlisted := by
    intro id hid
    rw [List.map_cons, List.mem_cons, not_or] at hid
    rw [hrest.unlisted hid.2, hfirst.unlisted (by simpa using hid.1)]
  renewed := by
    intro other key slot hother hkey hslot
    cases hother with
    | head => exact hrest.untouched (hfirst.renewed (List.mem_singleton_self _) hkey hslot) hnodup
    | tail _ hother =>
        have hid := h.keyOf_injective (h.keyed hslot) hkey
        have hne : slot.item.id ∉ [item].map (·.id) := by
          intro heq
          rw [hid, List.map_singleton, List.mem_singleton] at heq
          exact hnodup (heq ▸ List.mem_map_of_mem hother)
        exact hrest.renewed hother (hfirst.kept hkey) (hfirst.untouched hslot hne)
  untouched := by
    intro key slot hslot hid
    rw [List.map_cons, List.mem_cons, not_or] at hid
    exact hrest.untouched (hfirst.untouched hslot (by simpa using hid.1)) hid.2
  opened := by
    intro other hother hnone
    cases hother with
    | head =>
        obtain ⟨key, serial, hfresh, hkey, hslot⟩ :=
          hfirst.opened (List.mem_singleton_self _) hnone
        exact ⟨key, serial, hfresh, hrest.kept hkey, hrest.untouched hslot hnodup⟩
    | tail _ hother =>
        have hne : other.id ∉ [item].map (·.id) := by
          intro heq
          rw [List.map_singleton, List.mem_singleton] at heq
          exact hnodup (heq ▸ List.mem_map_of_mem hother)
        rw [← hfirst.unlisted hne] at hnone
        obtain ⟨key, serial, hfresh, hkey, hslot⟩ := hrest.opened hother hnone
        exact ⟨key, serial, fun hissued => hfresh (hfirst.issued hissued), hkey, hslot⟩
  issued := fun hissued => hrest.issued (hfirst.issued hissued)
  retired := fun hretired => hrest.retired (hfirst.retired hretired)

theorem enroll_of_new {table : SlotTable γ} {item : FilterItem}
    (hnew : table.keyOf item.id = none) (allocation : Allocation) :
    enroll (table, allocation) item =
      (table.openSlot item, { allocation with created := allocation.created ++ [item.id] }) := by
  simp only [enroll, hnew]

theorem exists_enroll_of_keyOf {table : SlotTable γ} {item : FilterItem} {key : SlotKey}
    (hkey : table.keyOf item.id = some key) (allocation : Allocation) :
    ∃ slots retained, enroll (table, allocation) item =
      ({ table with slots }, { allocation with retained }) := by
  simp only [enroll, hkey]
  split
  · exact ⟨_, _, rfl⟩
  · exact ⟨_, _, rfl⟩

/-- The key of an id resolves, so that no id of the table is ever passed over. -/
theorem Indexed.enroll_of_keyOf {table : SlotTable γ} (h : table.Indexed) {item : FilterItem}
    {key : SlotKey} (hkey : table.keyOf item.id = some key) (allocation : Allocation) :
    enroll (table, allocation) item =
      (table.renew key item, { allocation with retained := allocation.retained + 1 }) := by
  obtain ⟨slot, hslot, -⟩ := h.resolves hkey
  simp only [enroll, hkey, hslot]

theorem enrollment_enroll {table : SlotTable γ} (h : table.Indexed) (allocation : Allocation)
    (item : FilterItem) : Enrollment table [item] (enroll (table, allocation) item).1 := by
  cases hkey : table.keyOf item.id with
  | none =>
      rw [enroll_of_new hkey]
      exact enrollment_openSlot h hkey
  | some key =>
      rw [h.enroll_of_keyOf hkey]
      exact enrollment_renew h hkey

theorem enrollment_foldl {items : List FilterItem} (hnodup : (items.map (·.id)).Nodup)
    {table : SlotTable γ} (allocation : Allocation) (h : table.Indexed) :
    Enrollment table items (items.foldl enroll (table, allocation)).1 := by
  induction items generalizing table allocation with
  | nil => exact .refl h
  | cons item items ih =>
      obtain ⟨hitem, hitems⟩ := List.nodup_cons.1 hnodup
      have hfirst := enrollment_enroll h allocation item
      exact .cons h hfirst (ih hitems _ hfirst.indexed) hitem

end Enrollment

theorem get?_foldl_erase {α β : Type} (gone : List (β × SlotKey)) (a : Arena α) (key : SlotKey) :
    (gone.foldl (fun slots entry => slots.erase entry.2) a).get? key =
      if (gone.map (·.2)).contains key then none else a.get? key := by
  induction gone generalizing a with
  | nil => rfl
  | cons entry gone ih =>
      rw [List.foldl_cons, ih, Arena.get?_erase]
      by_cases hentry : key = entry.2
      · simp [hentry]
      · have hne : (key == entry.2) = false := by simpa using hentry
        simp only [hentry, if_false, List.map_cons, List.contains_cons, hne, Bool.false_or]

theorem issued_foldl_erase {α β : Type} (gone : List (β × SlotKey)) (a : Arena α) (key : SlotKey) :
    (gone.foldl (fun slots entry => slots.erase entry.2) a).Issued key ↔ a.Issued key := by
  induction gone generalizing a with
  | nil => rfl
  | cons entry gone ih => rw [List.foldl_cons, ih, Arena.issued_erase]

theorem keyOf_releaseOthers (table : SlotTable γ) (ids : List FilterId) (id : FilterId) :
    (table.releaseOthers ids).1.keyOf id = if id ∈ ids then table.keyOf id else none := by
  show (table.keys.filter fun entry => ids.contains entry.1).lookup id = _
  unfold keyOf
  induction table.keys with
  | nil => simp
  | cons entry keys ih =>
      obtain ⟨other, key⟩ := entry
      rw [List.filter_cons]
      by_cases hid : id = other
      · subst hid
        by_cases hmem : id ∈ ids
        · simp [hmem]
        · simpa [hmem] using ih
      · have hne : (id == other) = false := by simpa using hid
        split
        · rw [List.lookup_cons, hne, ih, List.lookup_cons, hne]
        · rw [ih, List.lookup_cons, hne]

theorem lookup_of_mem {α β : Type} [DecidableEq α] {entries : List (α × β)} {a : α} {b : β}
    (hnodup : (entries.map (·.1)).Nodup) (hmem : (a, b) ∈ entries) :
    entries.lookup a = some b := by
  induction entries with
  | nil => cases hmem
  | cons entry entries ih =>
      obtain ⟨hentry, hentries⟩ := List.nodup_cons.1 hnodup
      rw [List.lookup_cons]
      cases hmem with
      | head => simp
      | tail _ hmem =>
          have hne : (a == entry.1) = false := by
            rw [beq_eq_false_iff_ne]
            intro heq
            have hkey := List.mem_map_of_mem (f := (·.1)) hmem
            rw [heq] at hkey
            exact hentry hkey
          rw [hne]
          exact ih hentries hmem

theorem Indexed.mem_keys_iff {table : SlotTable γ} (h : table.Indexed) {id : FilterId}
    {key : SlotKey} : (id, key) ∈ table.keys ↔ table.keyOf id = some key := by
  constructor
  · exact lookup_of_mem h.nodup
  · intro hkey
    obtain ⟨before, after, hkeys, -⟩ := List.lookup_eq_some_iff.1 hkey
    simp [hkeys]

theorem Indexed.mem_gone_iff {table : SlotTable γ} (h : table.Indexed) {ids : List FilterId}
    {key : SlotKey} :
    key ∈ (table.keys.filter fun entry => !ids.contains entry.1).map (·.2) ↔
      ∃ id, table.keyOf id = some key ∧ id ∉ ids := by
  simp only [List.mem_map, List.mem_filter]
  constructor
  · intro hmem
    obtain ⟨⟨id, other⟩, ⟨hentry, hid⟩, rfl⟩ := hmem
    exact ⟨id, h.mem_keys_iff.1 hentry, by simpa using hid⟩
  · intro hmem
    obtain ⟨id, hkey, hid⟩ := hmem
    exact ⟨(id, key), ⟨h.mem_keys_iff.2 hkey, by simpa using hid⟩, rfl⟩

theorem get?_releaseOthers {table : SlotTable γ} (h : table.Indexed) (ids : List FilterId)
    (key : SlotKey) :
    (table.releaseOthers ids).1.get? key =
      (table.get? key).filter fun slot => ids.contains slot.item.id := by
  have herase : (table.releaseOthers ids).1.get? key =
      if ((table.keys.filter fun entry => !ids.contains entry.1).map (·.2)).contains key then none
      else table.get? key :=
    get?_foldl_erase _ _ _
  rw [herase]
  cases hslot : table.get? key with
  | none => simp
  | some slot =>
      have hkey := h.keyed hslot
      by_cases hid : slot.item.id ∈ ids
      · rw [if_neg]
        · simp [Option.filter_some, hid]
        · rw [List.contains_iff_mem, h.mem_gone_iff]
          intro hmem
          obtain ⟨other, hother, habsent⟩ := hmem
          exact habsent (h.keyOf_injective hkey hother ▸ hid)
      · rw [if_pos]
        · simp [Option.filter_some, hid]
        · rw [List.contains_iff_mem, h.mem_gone_iff]
          exact ⟨_, hkey, hid⟩

theorem issued_releaseOthers {table : SlotTable γ} {ids : List FilterId} {key : SlotKey} :
    (table.releaseOthers ids).1.slots.Issued key ↔ table.slots.Issued key :=
  issued_foldl_erase _ _ _

theorem retired_releaseOthers {table : SlotTable γ} (h : table.Indexed) {ids : List FilterId}
    {key : SlotKey} (hretired : table.slots.Retired key) :
    (table.releaseOthers ids).1.slots.Retired key := by
  refine ⟨issued_releaseOthers.2 hretired.1, ?_⟩
  have hnone : table.get? key = none := hretired.2
  show (table.releaseOthers ids).1.get? key = none
  rw [get?_releaseOthers h, hnone]
  rfl

theorem indexed_releaseOthers {table : SlotTable γ} (h : table.Indexed) (ids : List FilterId) :
    (table.releaseOthers ids).1.Indexed where
  nodup := (List.filter_sublist.map _).nodup h.nodup
  resolves := by
    intro id key hkey
    rw [keyOf_releaseOthers] at hkey
    split at hkey
    · rename_i hid
      obtain ⟨slot, hslot, rfl⟩ := h.resolves hkey
      refine ⟨slot, ?_, rfl⟩
      rw [get?_releaseOthers h, hslot]
      simp [hid]
    · cases hkey
  keyed := by
    intro key slot hslot
    rw [get?_releaseOthers h, Option.filter_eq_some_iff] at hslot
    rw [keyOf_releaseOthers, if_pos (by simpa using hslot.2), h.keyed hslot.1]

section Allocation

variable [Control γ]

theorem allocate_fst (table : SlotTable γ) (items : List FilterItem) :
    (table.allocate items).1 =
      (((distinctBy (·.id) items).foldl enroll (table, {})).1.releaseOthers
        ((distinctBy (·.id) items).map (·.id))).1 := rfl

structure Allocated (table : SlotTable γ) (items : List FilterItem) (table' : SlotTable γ) :
    Prop where
  indexed : table'.Indexed
  absent : ∀ {id}, id ∉ items.map (·.id) → table'.keyOf id = none
  retained : ∀ {id key slot}, id ∈ items.map (·.id) → table.keyOf id = some key →
    table.get? key = some slot → ∃ item, items.find? (·.id = id) = some item ∧
      table'.keyOf id = some key ∧ table'.get? key = some { slot with item }
  opened : ∀ {id}, id ∈ items.map (·.id) → table.keyOf id = none → ∃ key serial item,
    items.find? (·.id = id) = some item ∧ ¬ table.slots.Issued key ∧
      table'.keyOf id = some key ∧
        table'.get? key = some { item, control := Control.create serial item }
  released : ∀ {id key}, id ∉ items.map (·.id) → table.keyOf id = some key →
    table'.slots.Retired key
  issued : ∀ {key}, table.slots.Issued key → table'.slots.Issued key
  retired : ∀ {key}, table.slots.Retired key → table'.slots.Retired key

theorem exists_first {items : List FilterItem} {id : FilterId} (h : id ∈ items.map (·.id)) :
    ∃ item ∈ distinctBy (·.id) items, item.id = id ∧ items.find? (·.id = id) = some item := by
  have hfound : (items.find? (·.id = id)).isSome := by
    obtain ⟨item, hitem, hid⟩ := List.mem_map.1 h
    exact List.find?_isSome.2 ⟨item, hitem, by simpa using hid⟩
  obtain ⟨item, hitem⟩ := Option.isSome_iff_exists.1 hfound
  have hdistinct := hitem
  rw [← find?_distinctBy] at hdistinct
  exact ⟨item, List.mem_of_find?_eq_some hdistinct, by simpa using List.find?_some hdistinct, hitem⟩

theorem allocated_allocate {table : SlotTable γ} (h : table.Indexed) (items : List FilterItem) :
    Allocated table items (table.allocate items).1 := by
  have henroll : Enrollment table (distinctBy (·.id) items)
      ((distinctBy (·.id) items).foldl enroll (table, {})).1 :=
    enrollment_foldl (nodup_map_distinctBy _ _) {} h
  rw [allocate_fst]
  generalize ((distinctBy (·.id) items).foldl enroll (table, {})).1 = mid at henroll ⊢
  have hkeyOf : ∀ {id}, id ∈ items.map (·.id) →
      (mid.releaseOthers ((distinctBy (·.id) items).map (·.id))).1.keyOf id = mid.keyOf id := by
    intro id hid
    rw [keyOf_releaseOthers, if_pos (mem_map_distinctBy.2 hid)]
  have hget : ∀ {key slot}, mid.get? key = some slot → slot.item.id ∈ items.map (·.id) →
      (mid.releaseOthers ((distinctBy (·.id) items).map (·.id))).1.get? key = some slot := by
    intro key slot hslot hid
    rw [get?_releaseOthers henroll.indexed, hslot, Option.filter_some,
      if_pos (List.contains_iff_mem.2 (mem_map_distinctBy.2 hid))]
  constructor
  case indexed => exact indexed_releaseOthers henroll.indexed _
  case absent =>
    intro id hid
    rw [keyOf_releaseOthers, if_neg fun hmem => hid (mem_map_distinctBy.1 hmem)]
  case retained =>
    intro id key slot hid hkey hslot
    obtain ⟨item, hitem, rfl, hfirst⟩ := exists_first hid
    refine ⟨item, hfirst, (hkeyOf hid).trans (henroll.kept hkey), hget ?_ hid⟩
    exact henroll.renewed hitem hkey hslot
  case opened =>
    intro id hid hnone
    obtain ⟨item, hitem, rfl, hfirst⟩ := exists_first hid
    obtain ⟨key, serial, hfresh, hkey, hslot⟩ := henroll.opened hitem hnone
    exact ⟨key, serial, item, hfirst, hfresh, (hkeyOf hid).trans hkey, hget hslot hid⟩
  case released =>
    intro id key hid hkey
    have hmid := henroll.kept hkey
    obtain ⟨slot, hslot, rfl⟩ := henroll.indexed.resolves hmid
    refine ⟨issued_releaseOthers.2 (henroll.indexed.issued hmid), ?_⟩
    show (mid.releaseOthers _).1.get? key = none
    rw [get?_releaseOthers henroll.indexed, hslot, Option.filter_some, if_neg]
    rw [List.contains_iff_mem, mem_map_distinctBy]
    exact hid
  case issued =>
    intro key hissued
    exact issued_releaseOthers.2 (henroll.issued hissued)
  case retired =>
    intro key hretired
    exact retired_releaseOthers henroll.indexed (henroll.retired hretired)

theorem keyOf_enroll {state : SlotTable γ × Allocation} {item : FilterItem} {id : FilterId}
    (hne : id ≠ item.id) : (enroll state item).1.keyOf id = state.1.keyOf id := by
  obtain ⟨table, allocation⟩ := state
  cases hkey : table.keyOf item.id with
  | none => rw [enroll_of_new hkey, keyOf_openSlot id hkey, if_neg hne]
  | some key =>
      obtain ⟨slots, retained, henroll⟩ := exists_enroll_of_keyOf hkey allocation
      rw [henroll]
      rfl

theorem created_enroll (state : SlotTable γ × Allocation) (item : FilterItem) :
    (enroll state item).2.created =
      state.2.created ++ if (state.1.keyOf item.id).isNone then [item.id] else [] := by
  obtain ⟨table, allocation⟩ := state
  cases hkey : table.keyOf item.id with
  | none => simp [enroll_of_new hkey]
  | some key =>
      obtain ⟨slots, retained, henroll⟩ := exists_enroll_of_keyOf hkey allocation
      simp [henroll]

theorem created_foldl_enroll {items : List FilterItem} (hnodup : (items.map (·.id)).Nodup)
    (state : SlotTable γ × Allocation) :
    (items.foldl enroll state).2.created =
      state.2.created ++ (items.map (·.id)).filter fun id => (state.1.keyOf id).isNone := by
  induction items generalizing state with
  | nil => simp
  | cons item items ih =>
      obtain ⟨hitem, hitems⟩ := List.nodup_cons.1 hnodup
      -- Enrolling the first item does not change which of the others have a slot.
      have hrest : (items.map (·.id)).filter (fun id => ((enroll state item).1.keyOf id).isNone) =
          (items.map (·.id)).filter fun id => (state.1.keyOf id).isNone := by
        apply List.filter_congr
        intro id hid
        have hne : id ≠ item.id := by
          intro heq
          subst heq
          exact hitem hid
        rw [keyOf_enroll hne]
      rw [List.foldl_cons, ih hitems, created_enroll, hrest, List.append_assoc, List.map_cons,
        List.filter_cons]
      cases state.1.keyOf item.id <;> simp

theorem created_allocate (table : SlotTable γ) (items : List FilterItem) :
    (table.allocate items).2.created =
      ((distinctBy (·.id) items).map (·.id)).filter fun id => (table.keyOf id).isNone := by
  show ((distinctBy (·.id) items).foldl enroll (table, {})).2.created = _
  rw [created_foldl_enroll (nodup_map_distinctBy _ _)]
  rfl

theorem nodup_created (table : SlotTable γ) (items : List FilterItem) :
    (table.allocate items).2.created.Nodup := by
  rw [created_allocate]
  exact List.filter_sublist.nodup (nodup_map_distinctBy _ _)

theorem mem_created_iff {table : SlotTable γ} {items : List FilterItem} {id : FilterId} :
    id ∈ (table.allocate items).2.created ↔
      id ∈ items.map (·.id) ∧ table.keyOf id = none := by
  rw [created_allocate, List.mem_filter, mem_map_distinctBy, Option.isNone_iff_eq_none]

end Allocation

end SlotTable

end DashboardFilters
