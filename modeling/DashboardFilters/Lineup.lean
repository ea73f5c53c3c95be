import DashboardFilters.CrossFilter
import DashboardFilters.Scope

/-!
The line-up of a pass: which filters stand in the row, cross-filters first, and which are out of
scope. A native filter wins over a cross-filter of the same id, and of native filters the one in
scope wins.
-/

namespace DashboardFilters

/-- Cross-filters before native filters, each group in its order. A cross-filter whose id a native
filter has is left out. -/
def mergeRow (cross natives : List FilterItem) : List FilterItem :=
  (cross.filter fun item => !FilterItem.listed natives item.id) ++ natives

structure Lineup where
  row : List FilterItem
  outOfScope : List FilterItem
  /-- Some native filter has to be there before all others, so hidden groups are built as well. -/
  forceRender : Bool

namespace Lineup

/-- Cross-filters that the out-of-scope filters leave room for, numbered by their position among
all. -/
def crossItems (crossFilters : List CrossFilter) (outOfScope : List FilterItem) :
    List FilterItem :=
  (crossFilters.zipIdx.map fun (filter, order) => filter.toItem order).filter fun item =>
    !FilterItem.listed outOfScope item.id

def ofSplit (split : ScopeSplit) (crossFilters : List CrossFilter) : Lineup :=
  let split := split.reconcile
  { row := mergeRow (crossItems crossFilters split.outOfScope) split.inScope
    outOfScope := split.outOfScope
    forceRender := split.hasRequiredFirst }

def present (lineup : Lineup) : List FilterItem :=
  lineup.row ++ lineup.outOfScope

def cross (lineup : Lineup) : List FilterItem :=
  lineup.row.takeWhile (·.isCross)

def natives (lineup : Lineup) : List FilterItem :=
  lineup.row.dropWhile (·.isCross)

theorem cross_append_natives (lineup : Lineup) : lineup.cross ++ lineup.natives = lineup.row :=
  List.takeWhile_append_dropWhile

end Lineup

end DashboardFilters
