import DashboardFilters.Highlight
import DashboardFilters.Overflow
import DashboardFilters.Scope.Json

/-!
What a host asks of a pass besides the filters, as JSON: a layout and a highlight.
-/

namespace DashboardFilters

open Json

namespace LayoutMode

def tag : LayoutMode → String
  | vertical => "vertical"
  | horizontal => "horizontal"

def ofTag? : String → Option LayoutMode
  | "vertical" => some vertical
  | "horizontal" => some horizontal
  | _ => none

end LayoutMode

instance : ToJson LayoutMode := ⟨fun mode => .string mode.tag⟩
instance : OfJson LayoutMode := ⟨fun value => value.tag?.bind LayoutMode.ofTag?⟩

instance : ToJson Highlight where
  toJson highlight := .ofFields [
    ("id", toJson highlight.id),
    ("version", toJson highlight.version)]

instance : OfJson Highlight where
  ofJson? value := do
    match ← value.record? ["id", "version"] with
    | [id, version] => return { id := ← defaulting none id, version := ← required version }
    | _ => none

end DashboardFilters
