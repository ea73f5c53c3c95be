import DashboardFilters.Arena

/-!
Signals: listeners connected under ids that stay invalid once disconnected. Listeners are called in
the order of their arena positions, so a listener that takes a freed position comes where its
predecessor was.
-/

namespace DashboardFilters

abbrev ConnectionId := Arena.Key

structure Signal (β : Type) where
  connections : Arena β := ∅

namespace Signal

variable {β : Type}

instance : EmptyCollection (Signal β) := ⟨{ connections := ∅ }⟩
instance : Inhabited (Signal β) := ⟨∅⟩

def nextId (s : Signal β) : ConnectionId :=
  s.connections.nextKey

def connect (s : Signal β) (listener : β) : Signal β :=
  ⟨s.connections.insert listener⟩

def isLive (s : Signal β) (id : ConnectionId) : Bool :=
  (s.connections.get? id).isSome

def disconnect (s : Signal β) (id : ConnectionId) : Signal β :=
  ⟨s.connections.erase id⟩

def live (s : Signal β) : List (ConnectionId × β) :=
  s.connections.entries

theorem isLive_connect (s : Signal β) (listener : β) (id : ConnectionId) :
    (s.connect listener).isLive id = (id == s.nextId || s.isLive id) := by
  simp only [isLive, connect, nextId, Arena.get?_insert]
  by_cases h : id = s.connections.nextKey <;> simp [h]

theorem isLive_disconnect (s : Signal β) (id other : ConnectionId) :
    (s.disconnect id).isLive other = (other != id && s.isLive other) := by
  simp only [isLive, disconnect, Arena.get?_erase]
  by_cases h : other = id <;> simp [h]

theorem mem_live_iff {s : Signal β} {id : ConnectionId} {listener : β} :
    (id, listener) ∈ s.live ↔ s.connections.get? id = some listener :=
  Arena.mem_entries_iff

end Signal

end DashboardFilters
