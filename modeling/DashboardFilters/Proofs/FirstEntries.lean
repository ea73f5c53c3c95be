import DashboardFilters.Filter

namespace DashboardFilters

variable {α κ : Type} [DecidableEq κ] {key : α → κ}

theorem distinctBy_sublist (key : α → κ) (xs : List α) : (distinctBy key xs).Sublist xs := by
  induction xs with
  | nil => exact .slnil
  | cons x xs ih => exact .cons_cons x (List.filter_sublist.trans ih)

theorem nodup_map_distinctBy (key : α → κ) (xs : List α) :
    ((distinctBy key xs).map key).Nodup := by
  induction xs with
  | nil => exact List.nodup_nil
  | cons x xs ih =>
      rw [distinctBy, List.map_cons, List.nodup_cons]
      constructor
      · intro hmem
        obtain ⟨y, hy, hkey⟩ := List.mem_map.1 hmem
        simp [hkey] at hy
      · exact (List.filter_sublist.map key).nodup ih

theorem filter_distinctBy (p : κ → Bool) (xs : List α) :
    (distinctBy key xs).filter (fun x => p (key x)) =
      distinctBy key (xs.filter fun x => p (key x)) := by
  induction xs with
  | nil => rfl
  | cons x xs ih =>
      have hcomm : ((distinctBy key xs).filter fun y => key y ≠ key x).filter (fun y => p (key y)) =
          ((distinctBy key xs).filter fun y => p (key y)).filter fun y => key y ≠ key x := by
        simp only [List.filter_filter, Bool.and_comm]
      cases hp : p (key x) with
      | true =>
          simp only [distinctBy, List.filter_cons, hp, if_true]
          rw [hcomm, ih]
      | false =>
          simp only [distinctBy, List.filter_cons, hp, Bool.false_eq_true, if_false]
          rw [hcomm, ih, List.filter_eq_self]
          intro y hy
          have hpy := (List.mem_filter.1 ((distinctBy_sublist key _).subset hy)).2
          simp only [ne_eq, decide_not, Bool.not_eq_eq_eq_not, Bool.not_true,
            decide_eq_false_iff_not]
          intro hkey
          rw [hkey, hp] at hpy
          cases hpy

theorem distinctBy_of_nodup {xs : List α} (h : (xs.map key).Nodup) : distinctBy key xs = xs := by
  induction xs with
  | nil => rfl
  | cons x xs ih =>
      obtain ⟨hx, hxs⟩ := List.nodup_cons.1 h
      rw [distinctBy, ih hxs, List.filter_eq_self.2]
      intro y hy
      have hne : key y ≠ key x := fun hkey => hx (hkey ▸ List.mem_map_of_mem hy)
      simpa using hne

theorem find?_distinctBy (xs : List α) (k : κ) :
    (distinctBy key xs).find? (fun x => key x = k) = xs.find? fun x => key x = k := by
  induction xs with
  | nil => rfl
  | cons x xs ih =>
      by_cases hk : key x = k
      · simp [distinctBy, hk]
      · have hrest :
            ((distinctBy key xs).filter fun y => key y ≠ key x).find? (fun y => key y = k) =
              (distinctBy key xs).find? fun y => key y = k := by
          rw [List.find?_filter]
          congr 1
          funext y
          by_cases hy : key y = k
          · simp [hy, Ne.symm hk]
          · simp [hy]
        rw [distinctBy, List.find?_cons_of_neg (by simpa using hk), hrest, ih,
          List.find?_cons_of_neg (by simpa using hk)]

theorem mem_map_distinctBy {xs : List α} {k : κ} :
    k ∈ (distinctBy key xs).map key ↔ k ∈ xs.map key := by
  constructor
  · intro h
    exact ((distinctBy_sublist key xs).map key).subset h
  · intro h
    obtain ⟨x, hx, hkey⟩ := List.mem_map.1 h
    have hfound : (xs.find? fun x => key x = k).isSome :=
      List.find?_isSome.2 ⟨x, hx, by simpa using hkey⟩
    rw [← find?_distinctBy, List.find?_isSome] at hfound
    obtain ⟨y, hy, hkey⟩ := hfound
    exact List.mem_map.2 ⟨y, hy, by simpa using hkey⟩

theorem contains_map_distinctBy (xs : List α) (k : κ) :
    ((distinctBy key xs).map key).contains k = (xs.map key).contains k := by
  rw [Bool.eq_iff_iff, List.contains_iff_mem, List.contains_iff_mem]
  exact mem_map_distinctBy

theorem pairwise_distinctBy (key : α → κ) (xs : List α) :
    ((distinctBy key xs).map key).Pairwise fun k l =>
      (xs.map key).idxOf k < (xs.map key).idxOf l := by
  induction xs with
  | nil => exact .nil
  | cons x xs ih =>
      have hlater : ∀ k ∈ ((distinctBy key xs).filter fun y => key y ≠ key x).map key,
          ((x :: xs).map key).idxOf k = (xs.map key).idxOf k + 1 := by
        intro k hk
        obtain ⟨y, hy, rfl⟩ := List.mem_map.1 hk
        have hne : (key x == key y) = false :=
          beq_eq_false_iff_ne.2 fun heq => by simp [heq] at hy
        rw [List.map_cons, List.idxOf_cons, hne, cond_false]
      show (key x :: ((distinctBy key xs).filter fun y => key y ≠ key x).map key).Pairwise _
      rw [List.pairwise_cons]
      constructor
      · intro k hk
        rw [hlater k hk, List.map_cons, List.idxOf_cons_self]
        exact Nat.succ_pos _
      · refine (ih.sublist (List.filter_sublist.map key)).imp_of_mem ?_
        intro k l hk hl hlt
        rw [hlater k hk, hlater l hl]
        exact Nat.succ_lt_succ hlt

end DashboardFilters
