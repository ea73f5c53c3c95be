import DashboardFilters.Filter
import DashboardFilters.Floating

/-!
Fitting a row into a width. Items are set from the left with a spacing between them. If they do not
all fit, room is kept for the trigger of the drop-down, and the first item that reaches past the
remaining room is hidden together with all that follow.
-/

namespace DashboardFilters

/-- What was found out about the row: the ids that do not fit, from left to right, or that it could
not be measured. -/
inductive Measurement where
  | overflowed (ids : List FilterId)
  | unavailable
deriving DecidableEq

structure ItemExtent where
  id : FilterId
  width : Binary32

structure RowMetrics where
  spacing : Binary32 := 8
  padding : Binary32 := 16
  triggerWidth : Binary32 := 120
deriving DecidableEq

namespace RowMetrics

def inner (metrics : RowMetrics) (width : Binary32) : Binary32 :=
  width - metrics.padding * 2

/-- The length of all items, each but the last followed by a spacing. Items are counted in a machine
word. -/
def total (metrics : RowMetrics) (items : List ItemExtent) : Binary32 :=
  items.foldl (fun sum item => sum + item.width) 0
    + metrics.spacing * .ofNat .binary32 (items.length.toUInt64.toNat - 1)

/-- The items from the first one on that reaches past `limit`, when the first stands at
`position`. -/
def hiddenFrom (metrics : RowMetrics) (limit position : Binary32) :
    List ItemExtent → List ItemExtent
  | [] => []
  | item :: rest =>
      if limit.lt (position + item.width) then item :: rest
      else metrics.hiddenFrom limit (position + (item.width + metrics.spacing)) rest

/-- A width that leaves no finite positive room between the paddings cannot be measured. -/
def fit (metrics : RowMetrics) (width : Binary32) (items : List ItemExtent) : Measurement :=
  let room := metrics.inner width
  if !room.isFinite || room.le 0 then .unavailable
  else if (metrics.total items).le room then .overflowed []
  else
    let limit := room - metrics.triggerWidth - metrics.spacing
    .overflowed ((metrics.hiddenFrom limit 0 items).map (·.id))

end RowMetrics

end DashboardFilters
