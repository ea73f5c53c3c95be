import DashboardFilters.Highlight
import DashboardFilters.Lineup
import DashboardFilters.Panel.View
import DashboardFilters.Settings

/-!
The panel. Each pass takes the filters, the tabs and the requests of the host at one moment, in a
fixed order: scope and line-up, slots, mode and overflow, highlight, clearing, and last the places
of all controls. What the host and the controls are told along the way is a list of events.
-/

namespace DashboardFilters

inductive PanelEvent where
  | created (id : FilterId)
  | placed (id : FilterId) (placement : Placement)
  | cleared (id : FilterId)
  | clearCompleted (id : FilterId)
  | overflowChanged (notice : OverflowNotice)
  | openRequested (id : FilterId)
  | selected (id : FilterId) (value : Json)

structure UnknownFilter where
  id : FilterId
deriving DecidableEq

def UnknownFilter.message (error : UnknownFilter) : String :=
  "Unknown filter '" ++ error.id.text ++ "'"

structure PanelInput where
  mode : LayoutMode := .vertical
  snapshot : Snapshot := {}
  crossFilters : List CrossFilter := []
  highlight : Highlight := {}
  clearAll : List FilterId := []

structure Panel (γ : Type) where
  settings : Settings := {}
  slots : SlotTable γ := ∅
  overflow : Overflow := {}
  highlights : HighlightLog := {}

namespace SlotTable

variable {γ : Type}

def slotRef? (table : SlotTable γ) (item : FilterItem) : Option SlotRef :=
  (table.keyOf item.id).map fun key => { key, id := item.id, kind := item.kind }

def slotRefs (table : SlotTable γ) (items : List FilterItem) : List SlotRef :=
  items.filterMap table.slotRef?

variable [Control γ]

def clearOne (state : SlotTable γ × List PanelEvent) (id : FilterId) :
    SlotTable γ × List PanelEvent :=
  let (table, events) := state
  match table.keyOf id with
  | none => (table, events)
  | some key =>
      match table.get? key with
      | none => (table, events)
      | some _ =>
          (table.modifyControl key Control.clear, events ++ [.cleared id, .clearCompleted id])

def placeOne (state : SlotTable γ × List PanelEvent) (target : FilterId × Placement) :
    SlotTable γ × List PanelEvent :=
  let (table, events) := state
  match table.keyOf target.1 with
  | none => (table, events)
  | some key =>
      let (table, told) := table.place key target.2
      (table, if told then events ++ [.placed target.1 target.2] else events)

end SlotTable

namespace Lineup

def placements (lineup : Lineup) (mode : LayoutMode) (overflow : Overflow) :
    List (FilterId × Placement) :=
  let inRow (item : FilterItem) : Placement :=
    match mode with
    | .vertical => .inline
    | .horizontal => if overflow.isOverflowed item.id then .overflowed else .inline
  lineup.outOfScope.map (fun item => (item.id, .outOfScope))
    ++ lineup.row.map (fun item => (item.id, inRow item))

variable {γ : Type}

/-- The out-of-scope filters have a group of their own on a dashboard with tabs, unless no native
filters are configured at all. -/
def outOfScopeSection (lineup : Lineup) (snapshot : Snapshot) (table : SlotTable γ) :
    Option CollapsibleSection :=
  if snapshot.tabs.hasTabs && !snapshot.filters.isEmpty then
    some { slots := table.slotRefs lineup.outOfScope, forceRender := lineup.forceRender }
  else
    none

def verticalView (lineup : Lineup) (snapshot : Snapshot) (table : SlotTable γ) : VerticalView :=
  { cross := table.slotRefs lineup.cross
    inScope := table.slotRefs lineup.natives
    outOfScope := lineup.outOfScopeSection snapshot table }

/-- The entry of an item in the row. The last cross-filter is marked if native filters follow. -/
def rowEntry? (lineup : Lineup) (overflow : Overflow) (table : SlotTable γ) (item : FilterItem) :
    Option RowEntry :=
  (table.slotRef? item).map fun slot =>
    { slot
      overflowed := overflow.isOverflowed item.id
      lastCrossFilter :=
        !lineup.natives.isEmpty && (lineup.cross.getLast?.map (·.id)) == some item.id }

def trigger (labels : TriggerLabels) (split : OverflowSplit) : OverflowTrigger :=
  { text := labels.trigger
    count := split.active.length
    tooltip := labels.tooltip (split.active.map (·.name)) }

def dropdown? (lineup : Lineup) (snapshot : Snapshot) (split : OverflowSplit)
    (table : SlotTable γ) : Option Dropdown :=
  let group := lineup.outOfScopeSection snapshot table
  if split.isEmpty && (group.map (·.slots.isEmpty)).getD true then
    none
  else
    some {
      cross := table.slotRefs split.cross
      inScope := table.slotRefs split.inScope
      outOfScope := group }

def horizontalView (lineup : Lineup) (snapshot : Snapshot) (labels : TriggerLabels)
    (overflow : Overflow) (table : SlotTable γ) : HorizontalView :=
  let split := overflow.split lineup.natives lineup.cross
  { row := lineup.row.filterMap (lineup.rowEntry? overflow table)
    trigger := trigger labels split
    dropdown := lineup.dropdown? snapshot split table
    forceRender := lineup.forceRender }

end Lineup

structure Rendered (γ : Type) where
  panel : Panel γ
  view : PanelView
  events : List PanelEvent

namespace Panel

variable {γ : Type} [Control γ]

def renderWith (resolve : ScopeResolver) (panel : Panel γ) (input : PanelInput) : Rendered γ :=
  let snapshot := input.snapshot
  let lineup := Lineup.ofSplit (resolve snapshot.filters snapshot.tabs) input.crossFilters
  let (table, allocation) := panel.slots.allocate lineup.present
  let switched := panel.overflow.setMode input.mode
  let committed := switched.overflow.commit (lineup.row.map (·.id))
  let overflow := committed.overflow
  let (highlights, opened) := panel.highlights.observe input.highlight overflow.ids
  let (table, clearings) := input.clearAll.foldl SlotTable.clearOne (table, [])
  let (table, placings) :=
    (lineup.placements input.mode overflow).foldl SlotTable.placeOne (table, [])
  { panel := { panel with slots := table, overflow, highlights }
    view :=
      match input.mode with
      | .vertical => .vertical (lineup.verticalView snapshot table)
      | .horizontal =>
          .horizontal (lineup.horizontalView snapshot panel.settings.labels overflow table)
    events :=
      allocation.created.map .created
        ++ (switched.notice.toList ++ committed.notice.toList).map .overflowChanged
        ++ opened.toList.map .openRequested
        ++ clearings
        ++ placings }

def render (panel : Panel γ) (input : PanelInput) : Rendered γ :=
  panel.renderWith Tabs.split input

omit [Control γ]

/-- Reports a measurement of the row; it counts from the next pass on. -/
def report (panel : Panel γ) (measurement : Measurement) : Panel γ :=
  { panel with overflow := panel.overflow.report measurement }

def measure (panel : Panel γ) (width : Binary32) (items : List ItemExtent) : Panel γ :=
  panel.report (panel.settings.row.fit width items)

def edit (panel : Panel γ) (key : SlotKey) (f : γ → γ) : Panel γ :=
  { panel with slots := panel.slots.modifyControl key f }

def listen (panel : Panel γ) (listener : OverflowListener) : Panel γ :=
  { panel with overflow := panel.overflow.listen listener }

def unlisten (panel : Panel γ) (id : ConnectionId) : Panel γ :=
  { panel with overflow := panel.overflow.unlisten id }

def select (panel : Panel γ) (id : FilterId) (value : Json) : Except UnknownFilter PanelEvent :=
  match panel.slots.keyOf id with
  | some _ => .ok (.selected id value)
  | none => .error { id }

end Panel

end DashboardFilters
