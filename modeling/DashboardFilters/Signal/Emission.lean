import DashboardFilters.Signal

/-!
Emission with re-entrant listeners. What a listener does when it is called is a `Reaction`: it may
connect, disconnect and emit on the same signal, and read and change a state that the listeners
share. An emission calls the connections that are live when it begins and reports, call by call,
what the listeners did.
-/

namespace DashboardFilters

inductive Reaction (σ β α : Type) where
  | done
  | update (f : σ → σ) (next : Reaction σ β α)
  | consult (next : σ → Reaction σ β α)
  | connect (listener : β) (next : ConnectionId → Reaction σ β α)
  | disconnect (id : ConnectionId) (next : Bool → Reaction σ β α)
  | emit (argument : α) (next : Nat → Reaction σ β α)

/-- What happened to the signal during a call. An emission lists the connections it called, each
with what happened during its call. -/
inductive Deed (β α : Type) where
  | connected (id : ConnectionId) (listener : β)
  | disconnected (id : ConnectionId) (removed : Bool)
  | emitted (argument : α) (calls : List (ConnectionId × List (Deed β α)))

abbrev Calls (β α : Type) := List (ConnectionId × List (Deed β α))

structure Stage (σ β : Type) where
  signal : Signal β
  shared : σ

variable {σ β α : Type}

namespace Reaction

def run (emission : Stage σ β → α → Option (Calls β α × Stage σ β)) :
    Reaction σ β α → Stage σ β → Option (List (Deed β α) × Stage σ β)
  | done, stage => some ([], stage)
  | update f next, stage => next.run emission { stage with shared := f stage.shared }
  | consult next, stage => (next stage.shared).run emission stage
  | connect listener next, stage => do
      let id := stage.signal.nextId
      let (deeds, stage) ←
        (next id).run emission { stage with signal := stage.signal.connect listener }
      return (.connected id listener :: deeds, stage)
  | disconnect id next, stage => do
      let removed := stage.signal.isLive id
      let (deeds, stage) ←
        (next removed).run emission { stage with signal := stage.signal.disconnect id }
      return (.disconnected id removed :: deeds, stage)
  | emit argument next, stage => do
      let (calls, stage) ← emission stage argument
      let (deeds, stage) ← (next calls.length).run emission stage
      return (.emitted argument calls :: deeds, stage)

/-- Whatever the listener finds, it emits only arguments of the given kind. -/
def EmitsOnly (kind : α → Prop) : Reaction σ β α → Prop
  | done => True
  | update _ next => next.EmitsOnly kind
  | consult next => ∀ shared, (next shared).EmitsOnly kind
  | connect _ next => ∀ id, (next id).EmitsOnly kind
  | disconnect _ next => ∀ removed, (next removed).EmitsOnly kind
  | emit argument next => kind argument ∧ ∀ count, (next count).EmitsOnly kind

theorem isSome_run {kind : α → Prop}
    {emission : Stage σ β → α → Option (Calls β α × Stage σ β)}
    (hemission : ∀ stage argument, kind argument → (emission stage argument).isSome)
    (reaction : Reaction σ β α) (h : reaction.EmitsOnly kind) (stage : Stage σ β) :
    (reaction.run emission stage).isSome := by
  induction reaction generalizing stage with
  | done => rfl
  | update f next ih => exact ih h _
  | consult next ih => exact ih _ (h _) _
  | connect listener next ih =>
      obtain ⟨result, hresult⟩ := Option.isSome_iff_exists.1
        (ih stage.signal.nextId (h _) { stage with signal := stage.signal.connect listener })
      simp [run, hresult]
  | disconnect id next ih =>
      obtain ⟨result, hresult⟩ := Option.isSome_iff_exists.1
        (ih (stage.signal.isLive id) (h _) { stage with signal := stage.signal.disconnect id })
      simp [run, hresult]
  | emit argument next ih =>
      obtain ⟨inner, hinner⟩ := Option.isSome_iff_exists.1 (hemission stage argument h.1)
      obtain ⟨result, hresult⟩ := Option.isSome_iff_exists.1
        (ih inner.1.length (h.2 _) inner.2)
      simp [run, hinner, hresult]

end Reaction

namespace Stage

def callAll (call : β → Stage σ β → Option (List (Deed β α) × Stage σ β)) :
    List (ConnectionId × β) → Stage σ β → Option (Calls β α × Stage σ β)
  | [], stage => some ([], stage)
  | (id, listener) :: rest, stage => do
      let (deeds, stage) ← call listener stage
      let (calls, stage) ← callAll call rest stage
      return ((id, deeds) :: calls, stage)

/-- An emission in which emissions nest at most `depth` deep, itself included; none if they nest
deeper. -/
def emit (react : β → α → Reaction σ β α) :
    (depth : Nat) → Stage σ β → α → Option (Calls β α × Stage σ β)
  | 0, _, _ => none
  | depth + 1, stage, argument =>
      callAll (fun listener => (react listener argument).run (emit react depth))
        stage.signal.live stage

theorem isSome_callAll {call : β → Stage σ β → Option (List (Deed β α) × Stage σ β)}
    (h : ∀ listener stage, (call listener stage).isSome)
    (connections : List (ConnectionId × β)) (stage : Stage σ β) :
    (callAll call connections stage).isSome := by
  induction connections generalizing stage with
  | nil => rfl
  | cons connection rest ih =>
      obtain ⟨first, hfirst⟩ := Option.isSome_iff_exists.1 (h connection.2 stage)
      obtain ⟨others, hothers⟩ := Option.isSome_iff_exists.1 (ih first.2)
      simp [callAll, hfirst, hothers]

/-- If listeners answer an argument of the first kind only with emissions of the second, and those
with none, then emissions nest at most two deep. -/
theorem isSome_emit_two (outer : α → Prop) {react : β → α → Reaction σ β α}
    (houter : ∀ listener argument, (react listener argument).EmitsOnly outer)
    (hinner : ∀ listener argument, outer argument →
      (react listener argument).EmitsOnly fun _ => False)
    (stage : Stage σ β) (argument : α) : (emit react 2 stage argument).isSome := by
  refine isSome_callAll (fun listener stage => ?_) _ _
  refine Reaction.isSome_run (fun stage argument hargument => ?_) _ (houter listener argument) stage
  refine isSome_callAll (fun listener stage => ?_) _ _
  exact Reaction.isSome_run (fun _ _ h => h.elim) _ (hinner listener argument hargument) stage

end Stage

end DashboardFilters
