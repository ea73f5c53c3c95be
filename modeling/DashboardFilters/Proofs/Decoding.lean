import DashboardFilters.Json.Coding
import Mathlib

/-!
Decoding what was encoded. Encoded data has a shape, in which every field of a record stands; a type
is faithful to a shape if its values are encoded in it and decoding gives them back.
-/

namespace DashboardFilters

open Std

namespace SortedMap

variable {κ α : Type} [Ord κ] [LawfulEqOrd κ]

theorem nodup_keys (m : SortedMap κ α) : (m.entries.map (·.1)).Nodup := by
  rw [List.Nodup, List.pairwise_map]
  refine m.keysAscend.imp ?_
  intro entry other hlt heq
  rw [heq] at hlt
  simp at hlt

omit [LawfulEqOrd κ] in
def mapValues {β : Type} (f : α → β) (m : SortedMap κ α) : SortedMap κ β :=
  ⟨m.entries.map fun e => (e.1, f e.2), by
    rw [KeysAscend, List.pairwise_map]
    exact m.keysAscend⟩

omit [LawfulEqOrd κ] in
theorem get?_mapValues {β : Type} (f : α → β) (m : SortedMap κ α) (k : κ) :
    (m.mapValues f).get? k = (m.get? k).map f :=
  lookupEntry_map f k m.entries

omit [LawfulEqOrd κ] in
theorem mapValues_id (m : SortedMap κ α) : m.mapValues id = m := by
  obtain ⟨entries, hascend⟩ := m
  simp [mapValues]

variable [TransOrd κ] [DecidableEq κ] {entries : List (κ × α)}

theorem get?_ofList_eq_some_iff (h : (entries.map (·.1)).Nodup) {k : κ} {v : α} :
    (ofList entries).get? k = some v ↔ (k, v) ∈ entries := by
  induction entries using List.reverseRecOn with
  | nil => simp [ofList]
  | append_singleton entries entry ih =>
      obtain ⟨key, value⟩ := entry
      rw [List.map_append, List.nodup_append] at h
      obtain ⟨hnodup, -, hfresh⟩ := h
      have hinsert : ofList (entries ++ [(key, value)]) = (ofList entries).insert key value := by
        rw [ofList, List.foldl_append]
        rfl
      rw [hinsert, get?_insert, List.mem_append, List.mem_singleton]
      by_cases hk : k = key
      · subst hk
        have habsent : (k, v) ∉ entries := fun hmem =>
          hfresh k (List.mem_map_of_mem hmem) k (by simp) rfl
        rw [if_pos rfl, or_iff_right habsent]
        simp only [Option.some.injEq, Prod.mk.injEq, true_and]
        exact eq_comm
      · simp [hk, ih hnodup]

theorem perm_entries_ofList (h : (entries.map (·.1)).Nodup) :
    (ofList entries).entries.Perm entries := by
  rw [List.perm_ext_iff_of_nodup (nodup_keys _).of_map h.of_map]
  intro entry
  rw [← get?_eq_some_iff (k := entry.1) (v := entry.2), get?_ofList_eq_some_iff h]

theorem ofList_eq_of_perm {m : SortedMap κ α} (h : entries.Perm m.entries) : ofList entries = m := by
  have hnodup : (entries.map (·.1)).Nodup := (h.map (·.1)).nodup_iff.2 m.nodup_keys
  apply ext_get?
  intro k
  apply Option.ext
  intro v
  rw [get?_ofList_eq_some_iff hnodup, get?_eq_some_iff, h.mem_iff]

end SortedMap

inductive Shape where
  | any
  | truth
  | number
  | text
  | tag (names : List String)
  | nullable (shape : Shape)
  | items (shape : Shape)
  | byNumber (shape : Shape)
  | record (fields : List (String × Shape))

namespace Json

/-- The value is written out in that shape: a record has all of its fields and no others. -/
inductive Fills : Shape → Json → Prop where
  | any (value : Json) : Fills .any value
  | truth (b : Bool) : Fills .truth (.bool b)
  | number (n : UInt64) : Fills .number (.integer n.toNat)
  | text (s : String) : Fills .text (.string s)
  | tag {names : List String} {name : String} (h : name ∈ names) : Fills (.tag names) (.string name)
  | null (shape : Shape) : Fills (.nullable shape) .null
  | present {shape : Shape} {value : Json} (h : Fills shape value) : Fills (.nullable shape) value
  | items {shape : Shape} {values : List Json} (h : ∀ value ∈ values, Fills shape value) :
      Fills (.items shape) (.array values)
  | byNumber {shape : Shape} {fields : List (String × Json)} (hnodup : (fields.map (·.1)).Nodup)
      (hkeys : ∀ field ∈ fields, ∃ n, field.1 = numberKey n)
      (h : ∀ field ∈ fields, Fills shape field.2) : Fills (.byNumber shape) (.object fields)
  | record {shapes : List (String × Shape)} {fields : List (String × Json)}
      (hnames : (fields.map (·.1)).Perm (shapes.map (·.1)))
      (h : ∀ name value shape, (name, value) ∈ fields → (name, shape) ∈ shapes →
        Fills shape value) : Fills (.record shapes) (.object fields)

theorem perm_ofFields {fields : List (String × Json)} (h : (fields.map (·.1)).Nodup) :
    ∃ entries, ofFields fields = .object entries ∧ entries.Perm fields :=
  ⟨_, rfl, SortedMap.perm_entries_ofList h⟩

theorem record?_ofFields {names : List String} {fields : List (String × Json)}
    (hnames : fields.map (·.1) = names) (hnodup : names.Nodup) :
    (ofFields fields).record? names = some (fields.map fun field => some field.2) := by
  subst hnames
  rw [ofFields, record?, List.map_map]
  refine congrArg some (List.map_congr_left ?_)
  intro field hfield
  exact (SortedMap.get?_ofList_eq_some_iff hnodup).2 hfield

theorem exists_shape_of_mem {fields : List (String × Json)} {shapes : List (String × Shape)}
    (h : List.Forall₂ (fun field entry => field.1 = entry.1 ∧ field.2.Fills entry.2) fields shapes)
    {field : String × Json} (hfield : field ∈ fields) :
    ∃ entry ∈ shapes, field.1 = entry.1 ∧ field.2.Fills entry.2 := by
  induction h with
  | nil => cases hfield
  | cons hfirst _ ih =>
      rcases List.mem_cons.1 hfield with rfl | hfield
      · exact ⟨_, List.mem_cons_self, hfirst⟩
      · obtain ⟨entry, hentry, hfills⟩ := ih hfield
        exact ⟨entry, List.mem_cons_of_mem _ hentry, hfills⟩

theorem fills_ofFields {fields : List (String × Json)} {shapes : List (String × Shape)}
    (h : List.Forall₂ (fun field entry => field.1 = entry.1 ∧ field.2.Fills entry.2) fields shapes)
    (hnodup : (shapes.map (·.1)).Nodup) : (ofFields fields).Fills (.record shapes) := by
  have hnames : fields.map (·.1) = shapes.map (·.1) := by
    rw [← List.forall₂_eq_eq_eq, List.forall₂_map_left_iff, List.forall₂_map_right_iff]
    exact h.imp fun _ _ hfield => hfield.1
  obtain ⟨entries, hentries, hperm⟩ := perm_ofFields (hnames ▸ hnodup)
  rw [hentries]
  refine .record (hnames ▸ hperm.map _) ?_
  intro name value shape hfield hshape
  obtain ⟨entry, hentry, hname, hfills⟩ := exists_shape_of_mem h (hperm.mem_iff.1 hfield)
  have heq : entry = (name, shape) := List.inj_on_of_nodup_map hnodup hentry hshape hname.symm
  rw [heq] at hfills
  exact hfills

end Json

class LawfulJson (α : Type) [ToJson α] [OfJson α] : Prop where
  ofJson?_toJson : ∀ x : α, ofJson? (toJson x) = some x

class Shaped (α : Type) [ToJson α] (shape : outParam Shape) : Prop where
  fills_toJson : ∀ x : α, (toJson x).Fills shape

export LawfulJson (ofJson?_toJson)
export Shaped (fills_toJson)

attribute [simp] ofJson?_toJson fills_toJson

variable {α : Type} [ToJson α]

@[simp] theorem Json.required_toJson [OfJson α] [LawfulJson α] (x : α) :
    required (some (toJson x)) = some x :=
  ofJson?_toJson x

@[simp] theorem Json.defaulting_toJson [OfJson α] [LawfulJson α] (default x : α) :
    defaulting default (some (toJson x)) = some x :=
  ofJson?_toJson x

instance : LawfulJson Json := ⟨fun _ => rfl⟩
instance : Shaped Json .any := ⟨.any⟩

@[simp] theorem Json.defaulting_self (default value : Json) :
    defaulting default (some value) = some value := rfl

instance : LawfulJson Bool := ⟨fun _ => rfl⟩
instance : Shaped Bool .truth := ⟨.truth⟩

instance : LawfulJson String := ⟨fun _ => rfl⟩
instance : Shaped String .text := ⟨.text⟩

instance : LawfulJson UInt64 where
  ofJson?_toJson n := by
    have hbounds : (0 : Int) ≤ n.toNat ∧ (n.toNat : Int) < UInt64.size := by
      have hsize := n.toNat_lt_size
      omega
    simp only [toJson, ofJson?, if_pos hbounds, Int.toNat_natCast, UInt64.ofNat_toNat]

instance : Shaped UInt64 .number := ⟨.number⟩

theorem mapM_ofJson?_map_toJson [OfJson α] [LawfulJson α] (items : List α) :
    (items.map toJson).mapM ofJson? = some items := by
  induction items with
  | nil => rfl
  | cons item items ih => simp [ih]

instance [OfJson α] [LawfulJson α] : LawfulJson (List α) := ⟨mapM_ofJson?_map_toJson⟩

instance {shape : Shape} [Shaped α shape] : Shaped (List α) (.items shape) where
  fills_toJson items := by
    refine .items ?_
    intro value hvalue
    obtain ⟨item, -, rfl⟩ := List.mem_map.1 hvalue
    exact fills_toJson item

omit [ToJson α] in
theorem ofJson?_of_ne_null [OfJson α] {value : Json} (h : value ≠ .null) :
    ofJson? (α := Option α) value = (ofJson? value).map some := by
  cases value with
  | null => exact absurd rfl h
  | _ => rfl

/-- Nothing can be told from a value if no value is written as `null`. -/
theorem lawfulJson_option [OfJson α] [LawfulJson α] (h : ∀ x : α, toJson x ≠ .null) :
    LawfulJson (Option α) where
  ofJson?_toJson x := by
    cases x with
    | none => rfl
    | some x =>
        have hvalue := ofJson?_of_ne_null (α := α) (h x)
        rw [ofJson?_toJson] at hvalue
        exact hvalue

instance {shape : Shape} [Shaped α shape] : Shaped (Option α) (.nullable shape) where
  fills_toJson x := by
    cases x with
    | none => exact .null shape
    | some x => exact .present (fills_toJson x)

instance : LawfulJson (Option String) :=
  lawfulJson_option fun _ hnull => by cases hnull

instance : LawfulJson (SortedSet String) where
  ofJson?_toJson keys := by
    have hkeys : SortedSet.ofList keys.toList = keys := by
      apply SortedMap.ofList_eq_of_perm
      rw [SortedSet.toList, List.map_map]
      exact .of_eq (List.map_id _)
    change (ofJson? (α := List String) (toJson keys.toList)).map SortedSet.ofList = some keys
    rw [ofJson?_toJson, Option.map_some, hkeys]

instance : Shaped (SortedSet String) (.items .text) := ⟨fun keys => fills_toJson keys.toList⟩

theorem ofNumberKey?_numberKey (n : UInt64) : ofNumberKey? (numberKey n) = some n := by
  have hnumber : n.toNat < UInt64.size := n.toNat_lt_size
  rw [ofNumberKey?, numberKey, Nat.toString_eq_repr, Nat.toNat?_repr, Option.bind_some,
    if_pos ⟨hnumber, rfl⟩, UInt64.ofNat_toNat]

theorem numberKey_injective : Function.Injective numberKey := by
  intro n n' h
  have hsome := ofNumberKey?_numberKey n
  rw [h, ofNumberKey?_numberKey] at hsome
  exact (Option.some.inj hsome).symm

theorem nodup_keys_encoded (m : SortedMap UInt64 α) :
    ((m.entries.map fun e => (numberKey e.1, toJson e.2)).map (·.1)).Nodup := by
  have hkeys : (m.entries.map fun e => (numberKey e.1, toJson e.2)).map (·.1) =
      (m.entries.map (·.1)).map numberKey := by
    rw [List.map_map, List.map_map]
    rfl
  rw [hkeys]
  exact m.nodup_keys.map numberKey_injective

theorem mapM_eq_some_filterMap {β γ : Type} {f : β → Option γ} {xs : List β}
    (h : ∀ x ∈ xs, (f x).isSome = true) : xs.mapM f = some (xs.filterMap f) := by
  induction xs with
  | nil => rfl
  | cons x xs ih =>
      obtain ⟨y, hy⟩ := Option.isSome_iff_exists.1 (h x List.mem_cons_self)
      rw [List.mapM_cons, hy, ih fun x hx => h x (List.mem_cons_of_mem _ hx),
        List.filterMap_cons_some hy]
      rfl

theorem ofNumberField?_encoded [OfJson α] {f : α → α} (h : ∀ x, ofJson? (toJson x) = some (f x))
    (e : UInt64 × α) :
    ofNumberField? (numberKey e.1) (toJson e.2) = some (e.1, f e.2) := by
  simp only [ofNumberField?, ofNumberKey?_numberKey, h, Option.bind_eq_bind, Option.bind_some,
    Option.pure_def]

theorem ofJson?_toJson_mapValues [OfJson α] {f : α → α}
    (h : ∀ x, ofJson? (toJson x) = some (f x)) (m : SortedMap UInt64 α) :
    ofJson? (toJson m) = some (m.mapValues f) := by
  obtain ⟨fields, hfields, hperm⟩ := Json.perm_ofFields (nodup_keys_encoded m)
  have hread : ∀ field ∈ fields, (ofNumberField? (α := α) field.1 field.2).isSome = true := by
    intro field hfield
    obtain ⟨e, -, rfl⟩ := List.mem_map.1 (hperm.mem_iff.1 hfield)
    rw [ofNumberField?_encoded h, Option.isSome_some]
  have hentries : (fields.filterMap fun field => ofNumberField? (α := α) field.1 field.2).Perm
      (m.mapValues f).entries := by
    refine (hperm.filterMap _).trans (.of_eq ?_)
    simp only [List.filterMap_map, Function.comp_def, ofNumberField?_encoded h]
    exact congrFun (List.filterMap_eq_map (f := fun e => (e.1, f e.2))) m.entries
  have hobject : toJson m = .object fields := hfields
  rw [hobject]
  simp only [ofJson?, mapM_eq_some_filterMap hread]
  rw [Option.map_some, SortedMap.ofList_eq_of_perm hentries]

instance [OfJson α] [LawfulJson α] : LawfulJson (SortedMap UInt64 α) where
  ofJson?_toJson m := by
    rw [ofJson?_toJson_mapValues (f := id) ofJson?_toJson, m.mapValues_id]

instance {shape : Shape} [Shaped α shape] : Shaped (SortedMap UInt64 α) (.byNumber shape) where
  fills_toJson m := by
    obtain ⟨fields, hfields, hperm⟩ := Json.perm_ofFields (nodup_keys_encoded m)
    have hobject : toJson m = .object fields := hfields
    rw [hobject]
    refine .byNumber ((hperm.map _).nodup_iff.2 (nodup_keys_encoded m)) ?_ ?_
    · intro field hfield
      obtain ⟨e, -, rfl⟩ := List.mem_map.1 (hperm.mem_iff.1 hfield)
      exact ⟨e.1, rfl⟩
    · intro field hfield
      obtain ⟨e, -, rfl⟩ := List.mem_map.1 (hperm.mem_iff.1 hfield)
      exact fills_toJson e.2

/-- Values survive being encoded and decoded; and whatever form a value was decoded from, it is
encoded in full, and decoding that gives the same value again. -/
structure Restored (α : Type) [ToJson α] [OfJson α] (shape : Shape) : Prop where
  decoded : ∀ x : α, ofJson? (toJson x) = some x
  reencoded : ∀ value (x : α), ofJson? value = some x →
    (toJson x).Fills shape ∧ ofJson? (toJson x) = some x

theorem restored_of_lawfulJson [OfJson α] [LawfulJson α] {shape : Shape} [Shaped α shape] :
    Restored α shape where
  decoded := ofJson?_toJson
  reencoded _ x _ := ⟨fills_toJson x, ofJson?_toJson x⟩

end DashboardFilters
