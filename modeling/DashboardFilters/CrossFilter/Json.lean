import DashboardFilters.CrossFilter
import DashboardFilters.Scope.Json

namespace DashboardFilters

open Json

instance : ToJson Selection where
  toJson selection := .ofFields [
    ("value", toJson selection.value),
    ("label", toJson selection.label)]

instance : OfJson Selection where
  ofJson? json := do
    match ← json.record? ["value", "label"] with
    | [value, label] =>
        return { value := ← defaulting none value, label := ← defaulting none label }
    | _ => none

instance : ToJson Restriction where
  toJson restriction := .ofFields [
    ("col", toJson restriction.column),
    ("op", toJson restriction.operator),
    ("val", restriction.operand)]

instance : OfJson Restriction where
  ofJson? json := do
    match ← json.record? ["col", "op", "val"] with
    | [column, operator, operand] =>
        return {
          column := ← required column
          operator := ← required operator
          operand := ← defaulting .null operand }
    | _ => none

instance : ToJson DataMask where
  toJson mask := .ofFields [
    ("filter_state", toJson mask.selection),
    ("extra_filters", toJson mask.restrictions)]

instance : OfJson DataMask where
  ofJson? json := do
    match ← json.record? ["filter_state", "extra_filters"] with
    | [selection, restrictions] =>
        return {
          selection := ← defaulting {} selection
          restrictions := ← defaulting [] restrictions }
    | _ => none

instance : ToJson ChartPlace where
  toJson place := .ofFields [
    ("id", toJson place.id),
    ("chart_id", toJson place.chart),
    ("slice_name", toJson place.name),
    ("slice_name_override", toJson place.nameOverride),
    ("parents", toJson place.parents)]

instance : OfJson ChartPlace where
  ofJson? json := do
    match ← json.record? ["id", "chart_id", "slice_name", "slice_name_override", "parents"] with
    | [id, chart, name, nameOverride, parents] =>
        return {
          id := ← defaulting "" id
          chart := ← defaulting 0 chart
          name := ← defaulting "" name
          nameOverride := ← defaulting none nameOverride
          parents := ← defaulting [] parents }
    | _ => none

instance : ToJson CrossFilter where
  toJson filter := .ofFields [
    ("emitter_id", toJson filter.chart),
    ("name", toJson filter.name),
    ("column", toJson filter.column),
    ("value", toJson filter.value),
    ("path", toJson filter.path)]

instance : OfJson CrossFilter where
  ofJson? json := do
    match ← json.record? ["emitter_id", "name", "column", "value", "path"] with
    | [chart, name, column, value, path] =>
        return {
          chart := ← required chart
          name := ← required name
          column := ← defaulting none column
          value := ← defaulting none value
          path := ← required path }
    | _ => none

end DashboardFilters
