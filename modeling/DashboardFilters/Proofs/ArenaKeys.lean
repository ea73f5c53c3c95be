import DashboardFilters.Arena

namespace DashboardFilters

namespace Arena

variable {α : Type} {a : Arena α} {k l : Key} {value : α}

/-! Keys over the life of an arena. A position only ever gains occupants, so that a key once issued
stays issued, and one that stopped resolving never resolves again. -/

/-- The position has held at least as many values as the key counts. -/
def Issued (a : Arena α) (k : Key) : Prop :=
  k.generation ≤ a.generationAt k.position

theorem generationAt_insert (a : Arena α) (value : α) (position : Nat) :
    (a.insert value).generationAt position =
      if position = a.nextPosition then a.generationAt position + 1
      else a.generationAt position := by
  unfold insert
  split
  · rename_i hfreed
    have hnext : a.nextPosition = a.cells.length := by simp [nextPosition, hfreed]
    rw [hnext]
    rcases Nat.lt_trichotomy position a.cells.length with hlt | rfl | hgt
    · simp [generationAt, List.getElem?_append_left hlt, Nat.ne_of_lt hlt]
    · simp [generationAt]
    · have hout : (a.cells ++ [{ generation := 1, content := some value }])[position]? = none :=
        List.getElem?_eq_none (by simp; omega)
      have hout' : a.cells[position]? = none := List.getElem?_eq_none (by omega)
      simp [generationAt, hout, hout', Nat.ne_of_gt hgt]
  · rename_i free rest hfreed
    have hvacant := (a.listsVacant.mem_iff free).1 (hfreed ▸ List.mem_cons_self)
    obtain ⟨cell, hcell, -⟩ := Option.map_eq_some_iff.1 hvacant
    have hnext : a.nextPosition = free := by simp [nextPosition, hfreed]
    rw [hnext]
    by_cases hp : position = free
    · subst hp
      simp [generationAt, hcell]
    · simp [generationAt, hp, Ne.symm hp]

theorem generationAt_erase (a : Arena α) (k : Key) (position : Nat) :
    (a.erase k).generationAt position = a.generationAt position := by
  unfold erase
  split
  · by_cases hp : k.position = position
    · subst hp
      simp [generationAt, Function.comp_def]
    · simp [generationAt, hp]
  · rfl

theorem Cell.generation_modify (generation : Nat) (f : α → α) (cell : Cell α) :
    (cell.modify generation f).generation = cell.generation := by
  unfold Cell.modify
  split <;> rfl

theorem generationAt_modify (a : Arena α) (k : Key) (f : α → α) (position : Nat) :
    (a.modify k f).generationAt position = a.generationAt position := by
  by_cases hp : k.position = position
  · subst hp
    simp [generationAt, modify, Function.comp_def, Cell.generation_modify]
  · simp [generationAt, modify, hp]

theorem not_issued_nextKey (a : Arena α) : ¬ a.Issued a.nextKey := by
  simp [Issued, nextKey]

theorem issued_of_get? (h : a.get? k = some value) : a.Issued k := by
  have hcell := get?_eq_some_iff.1 h
  exact Nat.le_of_eq (generationAt_of_getElem? hcell).symm

theorem issued_insert : (a.insert value).Issued k ↔ a.Issued k ∨ k = a.nextKey := by
  unfold Issued
  rw [generationAt_insert]
  by_cases hp : k.position = a.nextPosition
  · have hkey : k = a.nextKey ↔ k.generation = a.generationAt k.position + 1 := by
      cases k
      simp_all [nextKey]
    rw [if_pos hp, hkey]
    omega
  · have hkey : k ≠ a.nextKey := fun h => hp (by rw [h]; rfl)
    simp [hp, hkey]

@[simp] theorem issued_erase : (a.erase l).Issued k ↔ a.Issued k := by
  simp [Issued, generationAt_erase]

@[simp] theorem issued_modify {f : α → α} : (a.modify l f).Issued k ↔ a.Issued k := by
  simp [Issued, generationAt_modify]

/-- A key that was issued and has stopped resolving. -/
def Retired (a : Arena α) (k : Key) : Prop :=
  a.Issued k ∧ a.get? k = none

theorem Retired.insert (h : a.Retired k) : (a.insert value).Retired k := by
  refine ⟨issued_insert.2 (.inl h.1), ?_⟩
  have hne : k ≠ a.nextKey := by
    intro hk
    exact a.not_issued_nextKey (hk ▸ h.1)
  rw [get?_insert, if_neg hne, h.2]

theorem Retired.erase (h : a.Retired k) : (a.erase l).Retired k := by
  refine ⟨issued_erase.2 h.1, ?_⟩
  rw [get?_erase, h.2, ite_self]

theorem Retired.modify {f : α → α} (h : a.Retired k) : (a.modify l f).Retired k := by
  refine ⟨issued_modify.2 h.1, ?_⟩
  simp [get?_modify, h.2]

theorem pairwise_entries (a : Arena α) :
    (a.entries.map (·.1)).Pairwise (·.position < ·.position) := by
  have hpositions : a.cells.zipIdx.Pairwise fun x y => x.2 < y.2 := by
    rw [← List.pairwise_map (f := Prod.snd), List.zipIdx_map_snd]
    exact List.pairwise_lt_range'
  rw [List.pairwise_map]
  refine hpositions.filterMap _ ?_
  intro x y hlt entry hentry other hother
  obtain ⟨_, -, rfl⟩ := Option.map_eq_some_iff.1 hentry
  obtain ⟨_, -, rfl⟩ := Option.map_eq_some_iff.1 hother
  exact hlt

theorem nodup_keys_entries (a : Arena α) : (a.entries.map (·.1)).Nodup := by
  refine a.pairwise_entries.imp ?_
  rintro key other hlt rfl
  exact Nat.lt_irrefl _ hlt

theorem nodup_entries (a : Arena α) : a.entries.Nodup :=
  List.Pairwise.of_map _ (fun _ _ hne heq => hne (congrArg Prod.fst heq)) a.nodup_keys_entries

end Arena

end DashboardFilters
