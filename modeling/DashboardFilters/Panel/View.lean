import DashboardFilters.Overflow
import DashboardFilters.Slots

/-!
What a pass shows. Views refer to slots by key; the same filter has the same slot wherever it is
shown.
-/

namespace DashboardFilters

structure SlotRef where
  key : SlotKey
  id : FilterId
  kind : FilterKind
deriving DecidableEq

structure CollapsibleSection where
  slots : List SlotRef
  forceRender : Bool
deriving DecidableEq

structure VerticalView where
  cross : List SlotRef
  inScope : List SlotRef
  outOfScope : Option CollapsibleSection
deriving DecidableEq

structure RowEntry where
  slot : SlotRef
  overflowed : Bool
  lastCrossFilter : Bool
deriving DecidableEq

/-- What opens the drop-down. `count` is the number of hidden filters that hold a value. -/
structure OverflowTrigger where
  text : String
  count : Nat
  tooltip : String
deriving DecidableEq

structure Dropdown where
  cross : List SlotRef
  inScope : List SlotRef
  outOfScope : Option CollapsibleSection
deriving DecidableEq

def Dropdown.slots (dropdown : Dropdown) : List SlotRef :=
  dropdown.cross ++ dropdown.inScope ++ (dropdown.outOfScope.map (·.slots)).getD []

structure HorizontalView where
  row : List RowEntry
  trigger : OverflowTrigger
  dropdown : Option Dropdown
  forceRender : Bool
deriving DecidableEq

namespace HorizontalView

def inlineSlots (view : HorizontalView) : List SlotRef :=
  (view.row.filter (!·.overflowed)).map (·.slot)

def overflowedSlots (view : HorizontalView) : List SlotRef :=
  (view.row.filter (·.overflowed)).map (·.slot)

end HorizontalView

inductive PanelView where
  | vertical (view : VerticalView)
  | horizontal (view : HorizontalView)
deriving DecidableEq

def PanelView.mode : PanelView → LayoutMode
  | vertical _ => .vertical
  | horizontal _ => .horizontal

def indented (indent : Nat) (line : String) : String :=
  String.ofList (List.replicate indent ' ') ++ line ++ "\n"

def SlotRef.text (indent : Nat) (note : String) (slot : SlotRef) : String :=
  let kind :=
    match slot.kind with
    | .native => ""
    | .cross => " (cross)"
  indented indent ("- " ++ slot.id.text ++ kind ++ note)

def slotLines (indent : Nat) (slots : List SlotRef) : String :=
  String.join (slots.map (SlotRef.text indent ""))

def CollapsibleSection.text (indent : Nat) (group : CollapsibleSection) : String :=
  let force := if group.forceRender then ", force-rendered" else ""
  indented indent ("out of scope (collapsed" ++ force ++ ")")
    ++ slotLines (indent + 2) group.slots

def sectionLines (indent : Nat) (group : Option CollapsibleSection) : String :=
  (group.map (CollapsibleSection.text indent)).getD ""

def RowEntry.text (entry : RowEntry) : String :=
  entry.slot.text 2 (if entry.overflowed then " [overflowed]" else "")

def OverflowTrigger.line (trigger : OverflowTrigger) : String :=
  indented 2
    ("trigger \"" ++ trigger.text ++ "\" (" ++ toString trigger.count ++ "): " ++ trigger.tooltip)

def Dropdown.text (dropdown : Dropdown) : String :=
  indented 2 "dropdown" ++ slotLines 4 (dropdown.cross ++ dropdown.inScope)
    ++ sectionLines 4 dropdown.outOfScope

def PanelView.text : PanelView → String
  | vertical view =>
      indented 0 "vertical" ++ slotLines 2 (view.cross ++ view.inScope)
        ++ sectionLines 2 view.outOfScope
  | horizontal view =>
      indented 0 "horizontal" ++ String.join (view.row.map RowEntry.text)
        ++ view.trigger.line ++ (view.dropdown.map Dropdown.text).getD ""

end DashboardFilters
