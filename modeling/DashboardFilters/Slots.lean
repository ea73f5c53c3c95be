import DashboardFilters.Arena
import DashboardFilters.Filter

/-!
Slots. Every filter of a pass has one slot, which holds its control, and keeps the slot's key and
the control for as long as consecutive passes contain the filter's id, wherever the filter is shown.
-/

namespace DashboardFilters

inductive Placement where
  | inline
  | overflowed
  | outOfScope
deriving DecidableEq

/-- What the panel needs of a control: a factory, told how many controls it has made with this one,
and the two calls that a control receives. -/
class Control (γ : Type) where
  create : (serial : Nat) → FilterItem → γ
  setPlacement : Placement → γ → γ
  clear : γ → γ

/-- The item is the one of the latest pass. -/
structure Slot (γ : Type) where
  item : FilterItem
  control : γ
  placement : Option Placement := none

abbrev SlotKey := Arena.Key

structure SlotTable (γ : Type) where
  slots : Arena (Slot γ) := ∅
  keys : List (FilterId × SlotKey) := []
  created : Nat := 0

/-- What an allocation did: ids that got a slot, ids that lost theirs, and how many kept it. -/
structure Allocation where
  created : List FilterId := []
  released : List FilterId := []
  retained : Nat := 0

def Allocation.isChanged (allocation : Allocation) : Bool :=
  !allocation.created.isEmpty || !allocation.released.isEmpty

namespace SlotTable

variable {γ : Type}

instance : EmptyCollection (SlotTable γ) := ⟨{ slots := ∅ }⟩

def keyOf (table : SlotTable γ) (id : FilterId) : Option SlotKey :=
  table.keys.lookup id

def get? (table : SlotTable γ) (key : SlotKey) : Option (Slot γ) :=
  table.slots.get? key

def size (table : SlotTable γ) : Nat :=
  table.slots.size

def entries (table : SlotTable γ) : List (SlotKey × Slot γ) :=
  table.slots.entries

/-- Gives a control to its user; a key that does not resolve changes nothing. -/
def modifyControl (table : SlotTable γ) (key : SlotKey) (f : γ → γ) : SlotTable γ :=
  { table with slots := table.slots.modify key fun slot => { slot with control := f slot.control } }

def openSlot [Control γ] (table : SlotTable γ) (item : FilterItem) : SlotTable γ :=
  let serial := table.created + 1
  { slots := table.slots.insert { item, control := Control.create serial item }
    keys := table.keys ++ [(item.id, table.slots.nextKey)]
    created := serial }

def renew (table : SlotTable γ) (key : SlotKey) (item : FilterItem) : SlotTable γ :=
  { table with slots := table.slots.modify key fun slot => { slot with item } }

/-- An id that has a slot keeps it and takes the new item; any other id gets a slot. -/
def enroll [Control γ] (state : SlotTable γ × Allocation) (item : FilterItem) :
    SlotTable γ × Allocation :=
  let (table, allocation) := state
  match table.keyOf item.id with
  | some key =>
      match table.get? key with
      | some _ => (table.renew key item, { allocation with retained := allocation.retained + 1 })
      -- A key that does not resolve is passed over and not counted.
      | none => (table, allocation)
  | none =>
      (table.openSlot item, { allocation with created := allocation.created ++ [item.id] })

/-- Releases every slot whose id is not among `ids`, in the order of the keys; a hash map of keys may
have any other order. The order shows in the report and in the positions that later slots take. -/
def releaseOthers (table : SlotTable γ) (ids : List FilterId) : SlotTable γ × List FilterId :=
  let kept := table.keys.filter fun entry => ids.contains entry.1
  let gone := table.keys.filter fun entry => !ids.contains entry.1
  ({ table with
      slots := gone.foldl (fun slots entry => slots.erase entry.2) table.slots
      keys := kept },
    gone.map (·.1))

/-- Makes the table hold exactly the ids of the items. Of several items of one id the first
counts. -/
def allocate [Control γ] (table : SlotTable γ) (items : List FilterItem) :
    SlotTable γ × Allocation :=
  let items := distinctBy (·.id) items
  let (table, allocation) := items.foldl enroll (table, {})
  let (table, released) := table.releaseOthers (items.map (·.id))
  (table, { allocation with released })

/-- Shows a slot at a place and tells its control, unless it is there already. The flag says whether
the control was told. -/
def place [Control γ] (table : SlotTable γ) (key : SlotKey) (placement : Placement) :
    SlotTable γ × Bool :=
  match table.get? key with
  | none => (table, false)
  | some slot =>
      if slot.placement = some placement then
        (table, false)
      else
        ({ table with
            slots := table.slots.modify key fun slot =>
              { slot with
                placement := some placement
                control := Control.setPlacement placement slot.control } },
          true)

end SlotTable

end DashboardFilters
