import DashboardFilters.Slots

/-!
A control that keeps what happens to it, and numbers for slot keys in the order of their issue.
-/

namespace DashboardFilters

/-- The number of the factory call that made it, the placements it was told, how often it was
cleared, and the edits since. -/
structure ControlRecord where
  serial : Nat
  placements : List Placement := []
  cleared : Nat := 0
  edits : List String := []
deriving DecidableEq

namespace ControlRecord

instance : Control ControlRecord where
  create serial _ := { serial }
  setPlacement placement record := { record with placements := record.placements ++ [placement] }
  clear record := { record with cleared := record.cleared + 1, edits := [] }

def edit (text : String) (record : ControlRecord) : ControlRecord :=
  { record with edits := record.edits ++ [text] }

end ControlRecord

/-- The keys issued so far; the number of a key is its position. -/
structure KeyLedger where
  issued : List SlotKey := []

namespace KeyLedger

def key? (ledger : KeyLedger) (number : Nat) : Option SlotKey :=
  ledger.issued[number]?

def numberOf? (ledger : KeyLedger) (key : SlotKey) : Option Nat :=
  ledger.issued.idxOf? key

def issue {γ : Type} (ledger : KeyLedger) (table : SlotTable γ) (created : List FilterId) :
    KeyLedger :=
  ⟨ledger.issued ++ created.filterMap table.keyOf⟩

end KeyLedger

end DashboardFilters
