import DashboardFilters.Filter

/-!
Highlighting a filter. A request is handled once, by its version, and asks for the drop-down to open
if the filter is hidden there.
-/

namespace DashboardFilters

/-- A request without an id asks for nothing. -/
structure Highlight where
  id : Option FilterId := none
  version : UInt64 := 0
deriving DecidableEq

structure HighlightLog where
  handled : Option UInt64 := none
deriving DecidableEq

namespace HighlightLog

def isNew (log : HighlightLog) (version : UInt64) : Bool :=
  match log.handled with
  | none => true
  | some handled => handled < version

/-- Handles a request, and gives the id for which the drop-down should open. A version is used up
also when nothing opens. -/
def observe (log : HighlightLog) (highlight : Highlight) (overflowed : List FilterId) :
    HighlightLog × Option FilterId :=
  match highlight.id with
  | none => (log, none)
  | some id =>
      if log.isNew highlight.version then
        ({ handled := some highlight.version },
          if overflowed.contains id then some id else none)
      else
        (log, none)

end HighlightLog

end DashboardFilters
