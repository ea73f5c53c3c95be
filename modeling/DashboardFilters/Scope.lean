import DashboardFilters.Filter
import DashboardFilters.SortedMap

/-!
Which native filters are in scope. Without tabs all are; with tabs a filter is in scope when a chart
it applies to is visible or a tab it is rooted in is active.
-/

namespace DashboardFilters

structure Tabs where
  hasTabs : Bool := false
  active : SortedSet String := ∅
  enclosing : SortedMap ChartId (List String) := ∅
deriving DecidableEq

namespace Tabs

/-- A chart of which no enclosing tabs are known is visible on every tab. -/
def shows (tabs : Tabs) (chart : ChartId) : Bool :=
  match tabs.enclosing.get? chart with
  | none => true
  | some parents => parents.all tabs.active.contains

def reaches (tabs : Tabs) (scope : FilterScope) : Bool :=
  scope.charts.any tabs.shows || scope.rootPath.any tabs.active.contains

def includes (tabs : Tabs) (filter : NativeFilter) : Bool :=
  !tabs.hasTabs || tabs.reaches filter.scope

end Tabs

structure ScopeSplit where
  inScope : List FilterItem := []
  outOfScope : List FilterItem := []
deriving DecidableEq

abbrev ScopeResolver := List NativeFilter → Tabs → ScopeSplit

def Tabs.split (filters : List NativeFilter) (tabs : Tabs) : ScopeSplit :=
  let halves := filters.zipIdx.partition fun (filter, _) => tabs.includes filter
  { inScope := halves.1.map fun (filter, order) => filter.toItem order
    outOfScope := halves.2.map fun (filter, order) => filter.toItem order }

namespace ScopeSplit

/-- An id on both sides stays in scope only. -/
def reconcile (split : ScopeSplit) : ScopeSplit :=
  { split with
    outOfScope := split.outOfScope.filter fun item => !FilterItem.listed split.inScope item.id }

def hasRequiredFirst (split : ScopeSplit) : Bool :=
  (split.inScope ++ split.outOfScope).any (·.requiredFirst)

end ScopeSplit

structure Snapshot where
  filters : List NativeFilter := []
  tabs : Tabs := {}
deriving DecidableEq

end DashboardFilters
