import DashboardFilters.Json

/-!
Typed data as JSON. A record is an object with its fields by name or an array with its fields by
position; in both forms a field may be missing, and what a missing field means is up to the field.
-/

namespace DashboardFilters

class ToJson (α : Type) where
  toJson : α → Json

class OfJson (α : Type) where
  ofJson? : Json → Option α

export ToJson (toJson)
export OfJson (ofJson?)

namespace Json

/-- The fields of a record in the order of `names`. Other fields of an object are ignored; an array
has no more items than there are names. -/
def record? (names : List String) : Json → Option (List (Option Json))
  | object fields => some (names.map (lookupEntry · fields))
  | array items =>
      if items.length ≤ names.length then
        some (items.map some ++ List.replicate (names.length - items.length) none)
      else
        none
  | _ => none

/-- The name of an enumeration's value: a string, or an object of that one key with the value
`null`. -/
def tag? : Json → Option String
  | string s => some s
  | object [(key, null)] => some key
  | _ => none

def required {α : Type} [OfJson α] (field : Option Json) : Option α :=
  field.bind ofJson?

/-- A field that may be missing, but not be wrong. -/
def defaulting {α : Type} [OfJson α] (default : α) : Option Json → Option α
  | none => some default
  | some value => ofJson? value

end Json

instance : ToJson Json := ⟨id⟩
instance : OfJson Json := ⟨some⟩

instance : ToJson Bool := ⟨.bool⟩
instance : OfJson Bool where
  ofJson?
    | .bool b => some b
    | _ => none

instance : ToJson String := ⟨.string⟩
instance : OfJson String where
  ofJson?
    | .string s => some s
    | _ => none

instance : ToJson UInt64 := ⟨fun n => .integer n.toNat⟩
instance : OfJson UInt64 where
  ofJson?
    | .integer i => if 0 ≤ i ∧ i < UInt64.size then some (.ofNat i.toNat) else none
    | _ => none

/-- An integer rounds to the format in one step, and so does a double. -/
instance : OfJson Binary32 where
  ofJson?
    | .integer i => some (.ofInt .binary32 i)
    | .double d => some (d.convert .binary32)
    | _ => none

variable {α : Type}

/-- Nothing is written as `null`. -/
instance [ToJson α] : ToJson (Option α) where
  toJson
    | some value => toJson value
    | none => .null

instance [OfJson α] : OfJson (Option α) where
  ofJson?
    | .null => some none
    | value => (ofJson? value).map some

instance [ToJson α] : ToJson (List α) := ⟨fun items => .array (items.map toJson)⟩
instance [OfJson α] : OfJson (List α) where
  ofJson?
    | .array items => items.mapM ofJson?
    | _ => none

instance : ToJson (SortedSet String) := ⟨fun keys => toJson keys.toList⟩
instance : OfJson (SortedSet String) where
  ofJson? value := (ofJson? value).map SortedSet.ofList

instance [ToJson α] : ToJson (SortedMap String α) where
  toJson m := .ofFields (m.entries.map fun e => (e.1, toJson e.2))

instance [OfJson α] : OfJson (SortedMap String α) where
  ofJson?
    | .object fields =>
        (fields.mapM fun field => (ofJson? field.2).map (field.1, ·)).map SortedMap.ofList
    | _ => none

def numberKey (n : UInt64) : String :=
  toString n.toNat

/-- Reads a key back; only the text that `numberKey` writes is one. -/
def ofNumberKey? (key : String) : Option UInt64 :=
  key.toNat?.bind fun n =>
    if n < UInt64.size ∧ toString n = key then some (.ofNat n) else none

def ofNumberField? [OfJson α] (key : String) (value : Json) : Option (UInt64 × α) := do
  return (← ofNumberKey? key, ← ofJson? value)

instance [ToJson α] : ToJson (SortedMap UInt64 α) where
  toJson m := .ofFields (m.entries.map fun e => (numberKey e.1, toJson e.2))

instance [OfJson α] : OfJson (SortedMap UInt64 α) where
  ofJson?
    | .object fields =>
        (fields.mapM fun field => ofNumberField? field.1 field.2).map SortedMap.ofList
    | _ => none

end DashboardFilters
