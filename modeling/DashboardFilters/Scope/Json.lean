import DashboardFilters.Json.Coding
import DashboardFilters.Scope

namespace DashboardFilters

open Json

instance : ToJson FilterId := ⟨fun id => .string id.text⟩
instance : OfJson FilterId := ⟨fun value => (ofJson? value).map FilterId.mk⟩

namespace FilterKind

def tag : FilterKind → String
  | native => "native"
  | cross => "cross"

def ofTag? : String → Option FilterKind
  | "native" => some native
  | "cross" => some cross
  | _ => none

end FilterKind

instance : ToJson FilterKind := ⟨fun kind => .string kind.tag⟩
instance : OfJson FilterKind := ⟨fun value => value.tag?.bind FilterKind.ofTag?⟩

instance : ToJson FilterScope where
  toJson scope := .ofFields [
    ("root_path", toJson scope.rootPath),
    ("charts_in_scope", toJson scope.charts)]

instance : OfJson FilterScope where
  ofJson? value := do
    match ← value.record? ["root_path", "charts_in_scope"] with
    | [rootPath, charts] =>
        return { rootPath := ← defaulting [] rootPath, charts := ← defaulting [] charts }
    | _ => none

instance : ToJson NativeFilter where
  toJson filter := .ofFields [
    ("id", toJson filter.id),
    ("name", toJson filter.name),
    ("required_first", toJson filter.requiredFirst),
    ("has_value", toJson filter.hasValue),
    ("scope", toJson filter.scope)]

instance : OfJson NativeFilter where
  ofJson? value := do
    match ← value.record? ["id", "name", "required_first", "has_value", "scope"] with
    | [id, name, requiredFirst, hasValue, scope] =>
        return {
          id := ← required id
          name := ← required name
          requiredFirst := ← defaulting false requiredFirst
          hasValue := ← defaulting false hasValue
          scope := ← defaulting {} scope }
    | _ => none

instance : ToJson Tabs where
  toJson tabs := .ofFields [
    ("has_tabs", toJson tabs.hasTabs),
    ("active_tabs", toJson tabs.active),
    ("chart_tab_parents", toJson tabs.enclosing)]

instance : OfJson Tabs where
  ofJson? value := do
    match ← value.record? ["has_tabs", "active_tabs", "chart_tab_parents"] with
    | [hasTabs, active, enclosing] =>
        return {
          hasTabs := ← defaulting false hasTabs
          active := ← defaulting ∅ active
          enclosing := ← defaulting ∅ enclosing }
    | _ => none

instance : ToJson Snapshot where
  toJson snapshot := .ofFields [
    ("filters", toJson snapshot.filters),
    ("scope", toJson snapshot.tabs)]

instance : OfJson Snapshot where
  ofJson? value := do
    match ← value.record? ["filters", "scope"] with
    | [filters, tabs] => return { filters := ← defaulting [] filters, tabs := ← defaulting {} tabs }
    | _ => none

end DashboardFilters
