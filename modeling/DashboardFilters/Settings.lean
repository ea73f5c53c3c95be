import DashboardFilters.Json.Coding
import DashboardFilters.Row.Fit
import DashboardFilters.Toml.Reading

/-!
The settings of a panel: the texts on the drop-down's trigger and the metrics of the row. Every
setting has a default, so a file may name as few of them as it likes.
-/

namespace DashboardFilters

structure TriggerLabels where
  trigger : String := "More filters"
  noneApplied : String := "No applied filters"
  applied : String := "Applied filters: "
deriving DecidableEq

def TriggerLabels.tooltip (labels : TriggerLabels) (names : List String) : String :=
  if names.isEmpty then labels.noneApplied else labels.applied ++ ", ".intercalate names

structure Settings where
  labels : TriggerLabels := {}
  row : RowMetrics := {}
deriving DecidableEq

open Json

instance : ToJson TriggerLabels where
  toJson labels := .ofFields [
    ("trigger_text", toJson labels.trigger),
    ("no_applied_filters", toJson labels.noneApplied),
    ("applied_filters_prefix", toJson labels.applied)]

instance : OfJson TriggerLabels where
  ofJson? value := do
    let default : TriggerLabels := {}
    match ← value.record? ["trigger_text", "no_applied_filters", "applied_filters_prefix"] with
    | [trigger, noneApplied, applied] =>
        return {
          trigger := ← defaulting default.trigger trigger
          noneApplied := ← defaulting default.noneApplied noneApplied
          applied := ← defaulting default.applied applied }
    | _ => none

instance : OfJson RowMetrics where
  ofJson? value := do
    let default : RowMetrics := {}
    match ← value.record? ["spacing", "padding", "trigger_width"] with
    | [spacing, padding, triggerWidth] =>
        return {
          spacing := ← defaulting default.spacing spacing
          padding := ← defaulting default.padding padding
          triggerWidth := ← defaulting default.triggerWidth triggerWidth }
    | _ => none

instance : OfJson Settings where
  ofJson? value := do
    match ← value.record? ["labels", "row"] with
    | [labels, row] => return { labels := ← defaulting {} labels, row := ← defaulting {} row }
    | _ => none

inductive SettingsFile where
  | missing
  | directory
  | bytes (content : ByteArray)

inductive ReadFailure where
  | missing
  | directory
  | notText
deriving DecidableEq

def ReadFailure.message : ReadFailure → String
  | missing => "No such file or directory (os error 2)"
  | directory => "Is a directory (os error 21)"
  | notText => "stream did not contain valid UTF-8"

inductive SettingsError where
  | unreadable (path : String) (failure : ReadFailure)
  | invalid
deriving DecidableEq

/-- The text for settings that could not be read; invalid ones have no text of their own. -/
def SettingsError.message? : SettingsError → Option String
  | unreadable path failure =>
      some ("Failed to read panel configuration '" ++ path ++ "': " ++ failure.message)
  | invalid => none

namespace Settings

def ofToml? (document : Toml) : Option Settings :=
  ofJson? document.toJson

def read (text : String) : Except SettingsError Settings :=
  match (Toml.read? text).bind ofToml? with
  | some settings => .ok settings
  | none => .error .invalid

def contentOf : SettingsFile → Except ReadFailure String
  | .missing => .error .missing
  | .directory => .error .directory
  | .bytes content =>
      match String.fromUTF8? content with
      | some text => .ok text
      | none => .error .notText

def load (path : String) (file : SettingsFile) : Except SettingsError Settings :=
  match contentOf file with
  | .ok text => read text
  | .error failure => .error (.unreadable path failure)

end Settings

end DashboardFilters
