import DashboardFilters.Property
import DashboardFilters.Row.Fit
import DashboardFilters.Signal

/-!
The overflow of the horizontal row. Measurements are reported at any time; only the last one
reported before a commit counts. The committed ids are kept in the order of the report, without
repetitions, and only as long as the row has them. The vertical list has no overflow.
-/

namespace DashboardFilters

inductive LayoutMode where
  | vertical
  | horizontal
deriving DecidableEq, Inhabited

/-- A listener for changes of the overflow. While it is told the new ids it may report
measurements. -/
structure OverflowListener where
  tag : String
  reports : List FilterId → List Measurement := fun _ => []

/-- A change of the overflow: the new ids, and the listeners that were told, in order. -/
structure OverflowNotice where
  ids : List FilterId
  listeners : List String
deriving DecidableEq

structure Overflow where
  mode : LayoutMode := .vertical
  overflowed : Property (List FilterId) := ⟨[]⟩
  pending : Option Measurement := none
  listeners : Signal OverflowListener := ∅

structure OverflowSplit where
  inScope : List FilterItem
  cross : List FilterItem
deriving DecidableEq

namespace OverflowSplit

def active (split : OverflowSplit) : List FilterItem :=
  split.inScope.filter (·.hasValue) ++ split.cross

def isEmpty (split : OverflowSplit) : Bool :=
  split.inScope.isEmpty && split.cross.isEmpty

end OverflowSplit

namespace Overflow

def ids (overflow : Overflow) : List FilterId :=
  overflow.overflowed.value

def isOverflowed (overflow : Overflow) (id : FilterId) : Bool :=
  overflow.ids.contains id

def listen (overflow : Overflow) (listener : OverflowListener) : Overflow :=
  { overflow with listeners := overflow.listeners.connect listener }

def unlisten (overflow : Overflow) (id : ConnectionId) : Overflow :=
  { overflow with listeners := overflow.listeners.disconnect id }

def report (overflow : Overflow) (measurement : Measurement) : Overflow :=
  { overflow with pending := some measurement }

/-- Sets the committed ids. If they change, every listener is told, and the last report of a
listener becomes the pending one. -/
def update (overflow : Overflow) (next : List FilterId) : Overflow × Option OverflowNotice :=
  if overflow.overflowed.changes next then
    let listeners := overflow.listeners.live.map (·.2)
    let overflow := { overflow with overflowed := overflow.overflowed.set next }
    ((listeners.flatMap (·.reports next)).foldl report overflow,
      some { ids := next, listeners := listeners.map (·.tag) })
  else
    (overflow, none)

/-- The result of a mode switch or a commit: whether the mode, or the committed ids, changed. -/
structure Outcome where
  overflow : Overflow
  changed : Bool
  notice : Option OverflowNotice

/-- Leaving the row clears the overflow and drops a pending report. -/
def setMode (overflow : Overflow) (mode : LayoutMode) : Outcome :=
  if overflow.mode = mode then
    { overflow, changed := false, notice := none }
  else
    match mode with
    | .horizontal => { overflow := { overflow with mode }, changed := true, notice := none }
    | .vertical =>
        let (overflow, notice) := update { overflow with mode, pending := none } []
        { overflow, changed := true, notice }

def candidate (overflow : Overflow) : List FilterId :=
  match overflow.pending with
  | some (.overflowed ids) => ids
  | some .unavailable => []
  | none => overflow.ids

/-- Commits the pending report for a row of the ids `known`. In the vertical list the report is
dropped and nothing else happens. -/
def commit (overflow : Overflow) (known : List FilterId) : Outcome :=
  let taken := { overflow with pending := none }
  match overflow.mode with
  | .vertical => { overflow := taken, changed := false, notice := none }
  | .horizontal =>
      let next := distinctBy id (overflow.candidate.filter known.contains)
      let (overflow, notice) := taken.update next
      { overflow, changed := notice.isSome, notice }

/-- Picks the overflowed filters out of a row. Of several items of one id the last counts, and
cross-filters come after the others. -/
def split (overflow : Overflow) (inScope cross : List FilterItem) : OverflowSplit :=
  let items := overflow.ids.filterMap fun id => (inScope ++ cross).reverse.find? (·.id == id)
  { inScope := items.filter (!·.isCross)
    cross := items.filter (·.isCross) }

end Overflow

end DashboardFilters
