/-!
A generational arena. Values live in cells; a key names a cell and the occupant it was issued for,
so that it stops resolving once that occupant is gone, even when the cell is given to another. A new
value takes the most recently freed cell, or a new one at the end if none is free.
-/

namespace DashboardFilters

/-- A cell counts its occupants, the present one included. -/
structure Arena.Cell (α : Type) where
  generation : Nat
  content : Option α
deriving DecidableEq

structure Arena.Key where
  position : Nat
  generation : Nat
deriving DecidableEq, Repr

namespace Arena

variable {α : Type}

structure ListsVacant (freed : List Nat) (cells : List (Cell α)) : Prop where
  nodup : freed.Nodup
  mem_iff : ∀ p, p ∈ freed ↔ (cells[p]?.map (·.content.isNone)) = some true

namespace ListsVacant

variable {cells : List (Cell α)} {freed : List Nat} {position : Nat}

theorem append {cell : Cell α} (h : ListsVacant freed cells) (hcell : cell.content.isSome) :
    ListsVacant freed (cells ++ [cell]) where
  nodup := h.nodup
  mem_iff p := by
    rw [h.mem_iff p]
    rcases Nat.lt_trichotomy p cells.length with hlt | rfl | hgt
    · rw [List.getElem?_append_left hlt]
    · simp [Option.isSome_iff_ne_none.1 hcell]
    · have hout : (cells ++ [cell])[p]? = none :=
        List.getElem?_eq_none (by simp; omega)
      have hout' : cells[p]? = none := List.getElem?_eq_none (by omega)
      simp [hout, hout']

theorem occupy {f : Cell α → Cell α} (h : ListsVacant (position :: freed) cells)
    (hf : ∀ cell, (f cell).content.isSome) : ListsVacant freed (cells.modify position f) where
  nodup := (List.nodup_cons.1 h.nodup).2
  mem_iff p := by
    have hvacant := h.mem_iff p
    rw [List.mem_cons] at hvacant
    rw [List.getElem?_modify]
    by_cases hp : position = p
    · subst hp
      have hfull : ∀ cell, (f cell).content.isNone = false := fun cell => by
        simpa using hf cell
      simp [(List.nodup_cons.1 h.nodup).1, Function.comp_def, hfull]
    · simpa [hp, Ne.symm hp] using hvacant

theorem vacate {f : Cell α → Cell α} {cell : Cell α} (h : ListsVacant freed cells)
    (hposition : cells[position]? = some cell) (hcell : cell.content.isSome)
    (hf : (f cell).content = none) : ListsVacant (position :: freed) (cells.modify position f) where
  nodup := by
    refine List.nodup_cons.2 ⟨fun hmem => ?_, h.nodup⟩
    have hvacant := (h.mem_iff position).1 hmem
    simp [hposition, Option.isSome_iff_ne_none.1 hcell] at hvacant
  mem_iff p := by
    rw [List.getElem?_modify, List.mem_cons, h.mem_iff p]
    by_cases hp : position = p
    · subst hp
      simp [hposition, hf]
    · simp [hp, Ne.symm hp]

theorem modify {f : Cell α → Cell α} (h : ListsVacant freed cells)
    (hf : ∀ cell, (f cell).content.isNone = cell.content.isNone) :
    ListsVacant freed (cells.modify position f) where
  nodup := h.nodup
  mem_iff p := by
    rw [List.getElem?_modify, h.mem_iff p]
    by_cases hp : position = p
    · cases hcell : cells[p]? <;> simp [hp, hf]
    · simp [hp]

end ListsVacant

end Arena

/-- `freed` holds the positions of the vacant cells, the most recently freed first. -/
structure Arena (α : Type) where
  cells : List (Arena.Cell α)
  freed : List Nat
  listsVacant : Arena.ListsVacant freed cells

namespace Arena

variable {α : Type}

def empty : Arena α :=
  ⟨[], [], List.nodup_nil, fun p => by simp⟩

instance : EmptyCollection (Arena α) := ⟨empty⟩
instance : Inhabited (Arena α) := ⟨∅⟩

def get? (a : Arena α) (k : Key) : Option α :=
  match a.cells[k.position]? with
  | some cell => if cell.generation = k.generation then cell.content else none
  | none => none

def generationAt (a : Arena α) (position : Nat) : Nat :=
  (a.cells[position]?.map (·.generation)).getD 0

def nextPosition (a : Arena α) : Nat :=
  a.freed.headD a.cells.length

def nextKey (a : Arena α) : Key :=
  { position := a.nextPosition, generation := a.generationAt a.nextPosition + 1 }

/-- The values held and their keys, in order of position. -/
def entries (a : Arena α) : List (Key × α) :=
  a.cells.zipIdx.filterMap fun (cell, position) =>
    cell.content.map fun value => ({ position, generation := cell.generation }, value)

def size (a : Arena α) : Nat :=
  a.entries.length

def insert (a : Arena α) (value : α) : Arena α :=
  match h : a.freed with
  | [] =>
      { cells := a.cells ++ [{ generation := 1, content := some value }]
        freed := []
        listsVacant := (h ▸ a.listsVacant).append rfl }
  | position :: rest =>
      { cells := a.cells.modify position fun cell =>
          { generation := cell.generation + 1, content := some value }
        freed := rest
        listsVacant := (h ▸ a.listsVacant).occupy fun _ => rfl }

theorem exists_cell_of_isSome_get? {a : Arena α} {k : Key} (h : (a.get? k).isSome) :
    ∃ cell, a.cells[k.position]? = some cell ∧ cell.content.isSome := by
  simp only [get?] at h
  split at h
  · rename_i cell hcell
    split at h
    · exact ⟨cell, hcell, h⟩
    · simp at h
  · simp at h

theorem listsVacant_erase {a : Arena α} {k : Key} (h : (a.get? k).isSome) :
    ListsVacant (k.position :: a.freed)
      (a.cells.modify k.position fun cell => { cell with content := none }) := by
  obtain ⟨cell, hposition, hcell⟩ := exists_cell_of_isSome_get? h
  exact a.listsVacant.vacate hposition hcell rfl

/-- Takes a value out; a key that does not resolve changes nothing. -/
def erase (a : Arena α) (k : Key) : Arena α :=
  if h : (a.get? k).isSome then
    { cells := a.cells.modify k.position fun cell => { cell with content := none }
      freed := k.position :: a.freed
      listsVacant := listsVacant_erase h }
  else
    a

def Cell.modify (generation : Nat) (f : α → α) (cell : Cell α) : Cell α :=
  if cell.generation = generation then { cell with content := cell.content.map f } else cell

theorem Cell.isNone_content_modify (generation : Nat) (f : α → α) (cell : Cell α) :
    (cell.modify generation f).content.isNone = cell.content.isNone := by
  unfold Cell.modify
  split <;> simp

def modify (a : Arena α) (k : Key) (f : α → α) : Arena α :=
  { cells := a.cells.modify k.position (Cell.modify k.generation f)
    freed := a.freed
    listsVacant := a.listsVacant.modify (Cell.isNone_content_modify k.generation f) }

theorem generationAt_of_getElem? {a : Arena α} {position : Nat} {cell : Cell α}
    (h : a.cells[position]? = some cell) : a.generationAt position = cell.generation := by
  simp [generationAt, h]

theorem get?_eq_some_iff {a : Arena α} {k : Key} {value : α} :
    a.get? k = some value ↔
      a.cells[k.position]? = some { generation := k.generation, content := some value } := by
  rw [get?]
  split
  · rename_i cell hcell
    obtain ⟨generation, content⟩ := cell
    simp only [hcell, Option.some.injEq, Cell.mk.injEq]
    split
    · rename_i hgeneration
      simp [hgeneration]
    · rename_i hgeneration
      simp [hgeneration]
  · rename_i hnone
    simp [hnone]

@[simp] theorem get?_empty (k : Key) : (∅ : Arena α).get? k = none := rfl

theorem get?_insert (a : Arena α) (value : α) (k : Key) :
    (a.insert value).get? k = if k = a.nextKey then some value else a.get? k := by
  obtain ⟨position, generation⟩ := k
  unfold insert
  split
  · rename_i hfreed
    have hnext : a.nextKey = { position := a.cells.length, generation := 1 } := by
      simp [nextKey, nextPosition, hfreed, generationAt]
    simp only [get?, hnext, Key.mk.injEq]
    rcases Nat.lt_trichotomy position a.cells.length with hlt | rfl | hgt
    · rw [List.getElem?_append_left hlt]
      simp [Nat.ne_of_lt hlt]
    · by_cases hg : generation = 1
      · simp [hg]
      · simp [hg, Ne.symm hg]
    · have hout : (a.cells ++ [{ generation := 1, content := some value }])[position]? = none :=
        List.getElem?_eq_none (by simp; omega)
      have hout' : a.cells[position]? = none := List.getElem?_eq_none (by omega)
      simp [hout, hout', Nat.ne_of_gt hgt]
  · rename_i free rest hfreed
    have hvacant := (a.listsVacant.mem_iff free).1 (hfreed ▸ List.mem_cons_self)
    obtain ⟨cell, hcell, hempty⟩ := Option.map_eq_some_iff.1 hvacant
    have hnext : a.nextKey = { position := free, generation := cell.generation + 1 } := by
      simp [nextKey, nextPosition, hfreed, generationAt, hcell]
    simp only [get?, hnext, Key.mk.injEq, List.getElem?_modify]
    by_cases hp : position = free
    · subst hp
      rw [Option.isNone_iff_eq_none] at hempty
      by_cases hg : generation = cell.generation + 1
      · simp [hcell, hg]
      · simp [hcell, hg, Ne.symm hg, hempty]
    · simp [hp, Ne.symm hp]

theorem get?_erase (a : Arena α) (k l : Key) :
    (a.erase k).get? l = if l = k then none else a.get? l := by
  unfold erase
  split
  · rename_i hlive
    obtain ⟨value, hvalue⟩ := Option.isSome_iff_exists.1 hlive
    have hcell := get?_eq_some_iff.1 hvalue
    simp only [get?, List.getElem?_modify]
    by_cases hp : k.position = l.position
    · rw [← hp]
      by_cases hg : k.generation = l.generation
      · have : l = k := by
          cases k; cases l; simp_all
        simp [hcell, hg, this]
      · have : l ≠ k := fun h => hg (by rw [h])
        simp [hcell, hg, this]
    · have : l ≠ k := fun h => hp (by rw [h])
      simp [hp, this]
  · rename_i hdead
    by_cases h : l = k
    · subst h
      simpa using hdead
    · simp [h]

theorem get?_modify (a : Arena α) (k l : Key) (f : α → α) :
    (a.modify k f).get? l = if l = k then (a.get? l).map f else a.get? l := by
  simp only [get?, modify, List.getElem?_modify, Cell.modify]
  by_cases hp : k.position = l.position
  · rw [← hp]
    cases hcell : a.cells[k.position]? with
    | none => simp
    | some cell =>
        by_cases hk : l = k
        · subst hk
          by_cases hg : cell.generation = l.generation <;> simp [hg]
        · have hne : k.generation ≠ l.generation := fun hg => hk (by cases k; cases l; simp_all)
          by_cases hg : cell.generation = k.generation
          · simp [hg, hk, hne]
          · simp [hg, hk]
  · have : l ≠ k := fun h => hp (by rw [h])
    simp [hp, this]

theorem modify_of_fixed {a : Arena α} {k : Key} {value : α} {f : α → α}
    (h : a.get? k = some value) (hf : f value = value) : a.modify k f = a := by
  have hcells : a.cells.modify k.position (Cell.modify k.generation f) = a.cells := by
    apply List.ext_getElem?
    intro position
    rw [List.getElem?_modify]
    by_cases hp : k.position = position
    · subst hp
      simp [get?_eq_some_iff.1 h, Cell.modify, hf]
    · simp [hp]
  obtain ⟨cells, freed, hvacant⟩ := a
  simp only [modify, hcells]

theorem mem_entries_iff {a : Arena α} {k : Key} {value : α} :
    (k, value) ∈ a.entries ↔ a.get? k = some value := by
  rw [get?_eq_some_iff]
  simp only [entries, List.mem_filterMap, Option.map_eq_some_iff, Prod.mk.injEq, Prod.exists,
    List.mk_mem_zipIdx_iff_getElem?]
  constructor
  · rintro ⟨⟨generation, content⟩, position, hcell, _, rfl, rfl, rfl⟩
    exact hcell
  · intro h
    exact ⟨_, _, h, _, rfl, rfl, rfl⟩

end Arena

end DashboardFilters
