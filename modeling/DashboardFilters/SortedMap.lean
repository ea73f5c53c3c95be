/-!
Finite maps and sets kept in key order. A map is determined by its look-ups (`SortedMap.ext_get?`),
so that equality of maps is equality as maps.
-/

namespace DashboardFilters

open Std

variable {κ : Type} {α : Type} [Ord κ]

def insertEntry (k : κ) (v : α) : List (κ × α) → List (κ × α)
  | [] => [(k, v)]
  | e :: rest =>
      match compare k e.1 with
      | .lt => (k, v) :: e :: rest
      | .eq => (k, v) :: rest
      | .gt => e :: insertEntry k v rest

def lookupEntry (k : κ) : List (κ × α) → Option α
  | [] => none
  | e :: rest => if compare k e.1 = .eq then some e.2 else lookupEntry k rest

def KeysAscend (entries : List (κ × α)) : Prop :=
  entries.Pairwise fun a b => compare a.1 b.1 = .lt

theorem mem_insertEntry {k : κ} {v : α} {e : κ × α} {entries : List (κ × α)}
    (h : e ∈ insertEntry k v entries) : e = (k, v) ∨ e ∈ entries := by
  induction entries with
  | nil => simpa [insertEntry] using h
  | cons head rest ih => grind [insertEntry]

theorem keysAscend_insertEntry [TransOrd κ] [LawfulEqOrd κ] (k : κ) (v : α)
    {entries : List (κ × α)} (h : KeysAscend entries) : KeysAscend (insertEntry k v entries) := by
  induction entries with
  | nil => simp [insertEntry, KeysAscend]
  | cons head rest ih =>
      obtain ⟨hhead, hrest⟩ := List.pairwise_cons.1 h
      rw [insertEntry]
      split
      · rename_i hlt
        refine List.pairwise_cons.2 ⟨fun e he => ?_, h⟩
        rcases List.mem_cons.1 he with rfl | he
        · exact hlt
        · exact TransCmp.lt_trans hlt (hhead e he)
      · rename_i heq
        refine List.pairwise_cons.2 ⟨fun e he => ?_, hrest⟩
        rw [LawfulEqCmp.eq_of_compare heq]
        exact hhead e he
      · rename_i hgt
        refine List.pairwise_cons.2 ⟨fun e he => ?_, ih hrest⟩
        rcases mem_insertEntry he with rfl | he
        · exact OrientedCmp.gt_iff_lt.1 hgt
        · exact hhead e he

theorem lookupEntry_insertEntry [DecidableEq κ] [TransOrd κ] [LawfulEqOrd κ] (k l : κ) (v : α)
    (entries : List (κ × α)) :
    lookupEntry l (insertEntry k v entries) =
      if l = k then some v else lookupEntry l entries := by
  induction entries with
  | nil => simp [insertEntry, lookupEntry]
  | cons head rest ih =>
      rw [insertEntry]
      split
      · simp [lookupEntry]
      · rename_i heq
        have := LawfulEqCmp.eq_of_compare heq
        by_cases h : l = k <;> simp_all [lookupEntry]
      · rename_i hgt
        have hne : k ≠ head.1 := fun h => by simp [h] at hgt
        by_cases h : l = k
        · subst h
          simp [lookupEntry, ih, hne]
        · simp [lookupEntry, ih, h]

theorem lookupEntry_map {β : Type} (f : α → β) (k : κ) (entries : List (κ × α)) :
    lookupEntry k (entries.map fun e => (e.1, f e.2)) = (lookupEntry k entries).map f := by
  induction entries with
  | nil => rfl
  | cons head rest ih =>
      rw [List.map_cons, lookupEntry, lookupEntry, ih]
      split <;> rfl

theorem lookupEntry_eq_some_iff [TransOrd κ] [LawfulEqOrd κ] {k : κ} {v : α}
    {entries : List (κ × α)} (h : KeysAscend entries) :
    lookupEntry k entries = some v ↔ (k, v) ∈ entries := by
  induction entries with
  | nil => simp [lookupEntry]
  | cons head rest ih =>
      obtain ⟨hhead, hrest⟩ := List.pairwise_cons.1 h
      by_cases hk : k = head.1
      · subst hk
        have habsent : (head.1, v) ∉ rest := fun hmem => by simpa using hhead _ hmem
        have : (head.1, v) = head ↔ head.2 = v :=
          ⟨fun h => by rw [← h], fun h => by rw [← h]⟩
        simp [lookupEntry, habsent, this]
      · have hne : (k, v) ≠ head := fun h => hk (by rw [← h])
        simp [lookupEntry, hk, ih hrest, hne]

theorem KeysAscend.ext [TransOrd κ] [LawfulEqOrd κ] {xs ys : List (κ × α)}
    (hx : KeysAscend xs) (hy : KeysAscend ys) (h : ∀ e, e ∈ xs ↔ e ∈ ys) : xs = ys := by
  induction xs generalizing ys with
  | nil =>
      cases ys with
      | nil => rfl
      | cons y ys => simpa using h y
  | cons x xs ih =>
      cases ys with
      | nil => simpa using h x
      | cons y ys =>
          obtain ⟨hxs, hx⟩ := List.pairwise_cons.1 hx
          obtain ⟨hys, hys'⟩ := List.pairwise_cons.1 hy
          have hxy : x = y := by
            rcases List.mem_cons.1 ((h x).1 List.mem_cons_self) with hxy | hmem
            · exact hxy
            rcases List.mem_cons.1 ((h y).2 List.mem_cons_self) with hyx | hmem'
            · exact hyx.symm
            have := TransCmp.lt_trans (hxs y hmem') (hys x hmem)
            simp at this
          subst hxy
          have hirr : ∀ {zs : List (κ × α)}, (∀ z ∈ zs, compare x.1 z.1 = .lt) → x ∉ zs :=
            fun hz hmem => by simpa using hz x hmem
          refine congrArg (x :: ·) (ih hx hys' fun e => ⟨fun he => ?_, fun he => ?_⟩)
          · rcases List.mem_cons.1 ((h e).1 (List.mem_cons_of_mem _ he)) with rfl | he'
            · exact absurd he (hirr hxs)
            · exact he'
          · rcases List.mem_cons.1 ((h e).2 (List.mem_cons_of_mem _ he)) with rfl | he'
            · exact absurd he (hirr hys)
            · exact he'

structure SortedMap (κ : Type) [Ord κ] (α : Type) where
  entries : List (κ × α)
  keysAscend : KeysAscend entries
deriving DecidableEq

namespace SortedMap

variable [TransOrd κ] [LawfulEqOrd κ]

def empty : SortedMap κ α :=
  ⟨[], List.Pairwise.nil⟩

instance : EmptyCollection (SortedMap κ α) := ⟨empty⟩
instance : Inhabited (SortedMap κ α) := ⟨∅⟩

def insert (m : SortedMap κ α) (k : κ) (v : α) : SortedMap κ α :=
  ⟨insertEntry k v m.entries, keysAscend_insertEntry k v m.keysAscend⟩

def get? (m : SortedMap κ α) (k : κ) : Option α :=
  lookupEntry k m.entries

def contains (m : SortedMap κ α) (k : κ) : Bool :=
  (m.get? k).isSome

/-- Of several entries of one key the last one stays. -/
def ofList (entries : List (κ × α)) : SortedMap κ α :=
  entries.foldl (fun m e => m.insert e.1 e.2) ∅

omit [TransOrd κ] [LawfulEqOrd κ] in
@[simp] theorem get?_empty (k : κ) : (∅ : SortedMap κ α).get? k = none := rfl

theorem get?_insert [DecidableEq κ] (m : SortedMap κ α) (k l : κ) (v : α) :
    (m.insert k v).get? l = if l = k then some v else m.get? l :=
  lookupEntry_insertEntry k l v m.entries

theorem get?_eq_some_iff {m : SortedMap κ α} {k : κ} {v : α} :
    m.get? k = some v ↔ (k, v) ∈ m.entries :=
  lookupEntry_eq_some_iff m.keysAscend

theorem ext_get? {m n : SortedMap κ α} (h : ∀ k, m.get? k = n.get? k) : m = n := by
  obtain ⟨xs, hx⟩ := m
  obtain ⟨ys, hy⟩ := n
  simp only [mk.injEq]
  refine hx.ext hy fun e => ?_
  have hk := h e.1
  simp only [get?] at hk
  rw [← lookupEntry_eq_some_iff (k := e.1) (v := e.2) hx,
    ← lookupEntry_eq_some_iff (k := e.1) (v := e.2) hy, hk]

end SortedMap

abbrev SortedSet (κ : Type) [Ord κ] := SortedMap κ Unit

namespace SortedSet

variable [TransOrd κ] [LawfulEqOrd κ]

def ofList (keys : List κ) : SortedSet κ :=
  SortedMap.ofList (keys.map (·, ()))

def toList (s : SortedSet κ) : List κ :=
  s.entries.map (·.1)

end SortedSet

end DashboardFilters
