import DashboardFilters.Filter
import DashboardFilters.Json.Text

/-!
Cross-filters. Every chart has a mask in the stored state of the dashboard; a chart whose mask holds
a value and restricts a column contributes one cross-filter (`CrossFilterSources.select`), shown
with a label for the value (`Selection.label?`).
-/

namespace DashboardFilters

structure Selection where
  value : Option Json := none
  label : Option String := none

structure Restriction where
  column : String
  operator : String
  operand : Json := .null

structure DataMask where
  selection : Selection := {}
  restrictions : List Restriction := []

abbrev DataMasks := SortedMap ChartId DataMask

structure ChartPlace where
  id : String := ""
  chart : ChartId := 0
  name : String := ""
  nameOverride : Option String := none
  parents : List String := []
deriving DecidableEq

/-- An empty override does not count. -/
def ChartPlace.displayName (place : ChartPlace) : String :=
  match place.nameOverride with
  | some name => if name.isEmpty then place.name else name
  | none => place.name

structure CrossFilter where
  chart : ChartId
  name : String
  column : Option String
  value : Option String
  path : List String
deriving DecidableEq

namespace CrossFilter

def id (filter : CrossFilter) : FilterId :=
  .cross filter.name filter.chart

def toItem (filter : CrossFilter) (order : Nat) : FilterItem :=
  { id := filter.id
    kind := .cross
    name := filter.name
    order
    requiredFirst := false
    hasValue := true }

end CrossFilter

namespace Json

/-- Null, false, zero and the empty string are no selection. -/
def isTruthy : Json → Bool
  | null => false
  | bool b => b
  | integer i => i != 0
  | double d => !d.isZero
  | string s => !s.isEmpty
  | array _ => true
  | object _ => true

def plainText : Json → String
  | string s => s
  | value => value.compact

end Json

def occursIn (word : List Char) : List Char → Bool
  | [] => word.isEmpty
  | c :: text => word.isPrefixOf (c :: text) || occursIn word text

namespace Selection

/-- A label that mentions `undefined` was made from missing data. -/
def isComplete (label : String) : Bool :=
  !occursIn "undefined".toList label.toList

/-- The chart's own label if it is complete, otherwise the values side by side. -/
def label? (selection : Selection) : Option String :=
  match selection.label.filter isComplete with
  | some label => some label
  | none =>
      match selection.value.filter Json.isTruthy with
      | some (.array values) => some (", ".intercalate (values.map Json.plainText))
      | some value => some value.plainText
      | none => none

end Selection

/-- What cross-filters are made from. `charts` are in layout order; `columnNames` gives, by chart,
names to show for columns. -/
structure CrossFilterSources where
  masks : DataMasks := ∅
  charts : List ChartId := []
  places : List ChartPlace := []
  columnNames : SortedMap ChartId (SortedMap String String) := ∅

namespace CrossFilterSources

/-- The last of several places of a chart counts. -/
def placeOf (sources : CrossFilterSources) (chart : ChartId) : Option ChartPlace :=
  sources.places.reverse.find? (·.chart == chart)

def columnName (sources : CrossFilterSources) (chart : ChartId) (column : String) : String :=
  (((sources.columnNames.get? chart).bind (·.get? column))).getD column

/-- The cross-filter of one chart. Its path leads through the enclosing containers to the chart's
own place, which is the empty text if it has none. -/
def crossFilterOf (sources : CrossFilterSources) (chart : ChartId) : Option CrossFilter := do
  let mask ← sources.masks.get? chart
  let _ ← mask.selection.value.filter Json.isTruthy
  let restriction ← mask.restrictions.head?
  let place := (sources.placeOf chart).getD {}
  return {
    chart
    name := place.displayName
    column := some (sources.columnName chart restriction.column)
    value := mask.selection.label?
    path := place.parents ++ [place.id] }

def select (sources : CrossFilterSources) : List CrossFilter :=
  sources.charts.filterMap sources.crossFilterOf

end CrossFilterSources

end DashboardFilters
