import DashboardFilters.CrossFilter.Json
import DashboardFilters.Highlight.Json
import DashboardFilters.Proofs.Decoding
import DashboardFilters.Scope.Json
import DashboardFilters.Settings

/-!
The full forms of the data that a dashboard stores and hands over. In each record the fields are
taken out as written, by `record?_ofFields`; what a field holds is then read by its own type. These
are forms of JSON values. Nothing is said of their texts, where `Json.read?` may take a double to one
beside it.
-/

namespace DashboardFilters

open Json

instance : LawfulJson FilterId := ⟨fun _ => rfl⟩
instance : Shaped FilterId .text := ⟨fun id => .text id.text⟩

instance : LawfulJson FilterKind where
  ofJson?_toJson kind := by cases kind <;> rfl

instance : Shaped FilterKind (.tag ["native", "cross"]) where
  fills_toJson kind := by cases kind <;> exact .tag (by decide)

instance : LawfulJson FilterScope where
  ofJson?_toJson scope := by
    refine Option.bind_eq_some_iff.2 ⟨_, record?_ofFields rfl (by decide), ?_⟩
    simp

def FilterScope.shape : Shape :=
  .record [("root_path", .items .text), ("charts_in_scope", .items .number)]

instance : Shaped FilterScope FilterScope.shape where
  fills_toJson scope := fills_ofFields (by simp) (by decide)

instance : LawfulJson NativeFilter where
  ofJson?_toJson filter := by
    refine Option.bind_eq_some_iff.2 ⟨_, record?_ofFields rfl (by decide), ?_⟩
    simp

def NativeFilter.shape : Shape :=
  .record [("id", .text), ("name", .text), ("required_first", .truth), ("has_value", .truth),
    ("scope", FilterScope.shape)]

instance : Shaped NativeFilter NativeFilter.shape where
  fills_toJson filter := fills_ofFields (by simp) (by decide)

instance : LawfulJson (Option FilterId) :=
  lawfulJson_option fun _ hnull => by cases hnull

instance : LawfulJson Highlight where
  ofJson?_toJson highlight := by
    refine Option.bind_eq_some_iff.2 ⟨_, record?_ofFields rfl (by decide), ?_⟩
    simp

def Highlight.shape : Shape :=
  .record [("id", .nullable .text), ("version", .number)]

instance : Shaped Highlight Highlight.shape where
  fills_toJson highlight := fills_ofFields (by simp) (by decide)

instance : LawfulJson Restriction where
  ofJson?_toJson restriction := by
    refine Option.bind_eq_some_iff.2 ⟨_, record?_ofFields rfl (by decide), ?_⟩
    simp

def Restriction.shape : Shape :=
  .record [("col", .text), ("op", .text), ("val", .any)]

instance : Shaped Restriction Restriction.shape where
  fills_toJson restriction := fills_ofFields (by simp [Fills.any]) (by decide)

instance : LawfulJson ChartPlace where
  ofJson?_toJson place := by
    refine Option.bind_eq_some_iff.2 ⟨_, record?_ofFields rfl (by decide), ?_⟩
    simp

def ChartPlace.shape : Shape :=
  .record [("id", .text), ("chart_id", .number), ("slice_name", .text),
    ("slice_name_override", .nullable .text), ("parents", .items .text)]

instance : Shaped ChartPlace ChartPlace.shape where
  fills_toJson place := fills_ofFields (by simp) (by decide)

instance : LawfulJson CrossFilter where
  ofJson?_toJson filter := by
    refine Option.bind_eq_some_iff.2 ⟨_, record?_ofFields rfl (by decide), ?_⟩
    simp

def CrossFilter.shape : Shape :=
  .record [("emitter_id", .number), ("name", .text), ("column", .nullable .text),
    ("value", .nullable .text), ("path", .items .text)]

instance : Shaped CrossFilter CrossFilter.shape where
  fills_toJson filter := fills_ofFields (by simp) (by decide)

instance : LawfulJson LayoutMode where
  ofJson?_toJson mode := by cases mode <;> rfl

instance : Shaped LayoutMode (.tag ["vertical", "horizontal"]) where
  fills_toJson mode := by cases mode <;> exact .tag (by decide)

instance : LawfulJson TriggerLabels where
  ofJson?_toJson labels := by
    refine Option.bind_eq_some_iff.2 ⟨_, record?_ofFields rfl (by decide), ?_⟩
    simp

def TriggerLabels.shape : Shape :=
  .record [("trigger_text", .text), ("no_applied_filters", .text),
    ("applied_filters_prefix", .text)]

instance : Shaped TriggerLabels TriggerLabels.shape where
  fills_toJson labels := fills_ofFields (by simp) (by decide)

instance : LawfulJson Tabs where
  ofJson?_toJson tabs := by
    refine Option.bind_eq_some_iff.2 ⟨_, record?_ofFields rfl (by decide), ?_⟩
    simp

def Tabs.shape : Shape :=
  .record [("has_tabs", .truth), ("active_tabs", .items .text),
    ("chart_tab_parents", .byNumber (.items .text))]

instance : Shaped Tabs Tabs.shape where
  fills_toJson tabs := fills_ofFields (by simp) (by decide)

instance : LawfulJson Snapshot where
  ofJson?_toJson snapshot := by
    refine Option.bind_eq_some_iff.2 ⟨_, record?_ofFields rfl (by decide), ?_⟩
    simp

def Snapshot.shape : Shape :=
  .record [("filters", .items NativeFilter.shape), ("scope", Tabs.shape)]

instance : Shaped Snapshot Snapshot.shape where
  fills_toJson snapshot := fills_ofFields (by simp) (by decide)

/-- Whatever is stored or handed over is encoded in full, and decoding the JSON value gives back what
was encoded. -/
theorem stored_data_restored :
    Restored FilterId .text ∧
    Restored FilterKind (.tag ["native", "cross"]) ∧
    Restored FilterScope FilterScope.shape ∧
    Restored NativeFilter NativeFilter.shape ∧
    Restored LayoutMode (.tag ["vertical", "horizontal"]) ∧
    Restored Highlight Highlight.shape ∧
    Restored CrossFilter CrossFilter.shape ∧
    Restored Restriction Restriction.shape ∧
    Restored ChartPlace ChartPlace.shape ∧
    Restored TriggerLabels TriggerLabels.shape ∧
    Restored Tabs Tabs.shape ∧
    Restored Snapshot Snapshot.shape := by
  refine ⟨?_, ?_, ?_, ?_, ?_, ?_, ?_, ?_, ?_, ?_, ?_, ?_⟩
  all_goals exact restored_of_lawfulJson

/-- A filter by position, without its last fields, and one by name, with a field too many. -/
theorem stored_data_restored_of_partial :
    let filter : NativeFilter := { id := ⟨"region"⟩, name := "Region", requiredFirst := true }
    let byPosition : Json := .array [.string "region", .string "Region", .bool true]
    let byName : Json := .ofFields [("name", .string "Region"), ("required_first", .bool true),
      ("color", .integer 3), ("id", .string "region")]
    ofJson? byPosition = some filter ∧ ofJson? byName = some filter ∧
      (toJson filter).Fills NativeFilter.shape ∧ ofJson? (toJson filter) = some filter := by
  intro filter byPosition byName
  have hposition : ofJson? byPosition = some filter := by decide
  have hname : ofJson? byName = some filter := by decide
  obtain ⟨-, -, -, hrestored, -⟩ := stored_data_restored
  exact ⟨hposition, hname, hrestored.reencoded byName filter hname⟩

end DashboardFilters
