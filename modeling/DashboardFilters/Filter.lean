/-!
Filters of a dashboard. A native filter is configured; a cross-filter comes from a chart that the
user selected something in. `FilterItem` is what one pass knows about a filter of either kind.
-/

namespace DashboardFilters

abbrev ChartId := UInt64

structure FilterId where
  text : String
deriving DecidableEq, Inhabited

/-- The id of the cross-filter that a chart emits under a name: the name and the number of the chart
side by side. -/
def FilterId.cross (name : String) (chart : ChartId) : FilterId :=
  ⟨name ++ toString chart.toNat⟩

inductive FilterKind where
  | native
  | cross
deriving DecidableEq, Inhabited

/-- `order` is the position in the list that the item came from. -/
structure FilterItem where
  id : FilterId
  kind : FilterKind
  name : String
  order : Nat
  requiredFirst : Bool
  hasValue : Bool
deriving DecidableEq, Inhabited

namespace FilterItem

def isCross (item : FilterItem) : Bool :=
  item.kind == .cross

/-- A cross-filter holds a value as long as it is there. -/
def holdsValue (item : FilterItem) : Bool :=
  item.isCross || item.hasValue

def listed (items : List FilterItem) (id : FilterId) : Bool :=
  items.any (·.id == id)

end FilterItem

structure FilterScope where
  rootPath : List String := []
  charts : List ChartId := []
deriving DecidableEq

structure NativeFilter where
  id : FilterId
  name : String
  requiredFirst : Bool := false
  hasValue : Bool := false
  scope : FilterScope := {}
deriving DecidableEq

def NativeFilter.toItem (filter : NativeFilter) (order : Nat) : FilterItem :=
  { id := filter.id
    kind := .native
    name := filter.name
    order
    requiredFirst := filter.requiredFirst
    hasValue := filter.hasValue }

/-- Keeps the first of several entries of one key. -/
def distinctBy {α κ : Type} [DecidableEq κ] (key : α → κ) : List α → List α
  | [] => []
  | x :: xs => x :: (distinctBy key xs).filter fun y => key y ≠ key x

end DashboardFilters
