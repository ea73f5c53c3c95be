import DashboardFilters.Proofs.ConnectionOrder

/-!
The transcript of a signal: the calls of connect and disconnect with their answers, in the order in
which they happen. A listener makes such calls in the middle of an emission, and an emission by
itself changes no connection. So what a listener, a whole emission or the host does to a signal is
what its transcript says.
-/

namespace DashboardFilters

variable {σ β α : Type}

inductive SignalRecord (β : Type) where
  | connected (id : ConnectionId) (listener : β)
  | disconnected (id : ConnectionId) (removed : Bool)
deriving DecidableEq

def SignalRecord.command : SignalRecord β → SignalCommand β
  | connected _ listener => .connect listener
  | disconnected id _ => .disconnect id

def SignalRecord.issued? : SignalRecord β → Option ConnectionId
  | connected id _ => some id
  | disconnected _ _ => none

namespace Signal

def answer (s : Signal β) : SignalCommand β → SignalRecord β
  | .connect listener => .connected s.nextId listener
  | .disconnect id => .disconnected id (s.isLive id)

def transcript (s : Signal β) : List (SignalCommand β) → List (SignalRecord β)
  | [] => []
  | command :: commands => s.answer command :: (s.step command).transcript commands

def replay (s : Signal β) (records : List (SignalRecord β)) : Signal β :=
  s.run (records.map (·.command))

@[simp] theorem command_answer (s : Signal β) (command : SignalCommand β) :
    (s.answer command).command = command := by
  cases command <;> rfl

theorem map_command_transcript (s : Signal β) (commands : List (SignalCommand β)) :
    (s.transcript commands).map (·.command) = commands := by
  induction commands generalizing s with
  | nil => rfl
  | cons command commands ih => rw [transcript, List.map_cons, command_answer, ih]

theorem filterMap_issued?_transcript (s : Signal β) (commands : List (SignalCommand β)) :
    (s.transcript commands).filterMap (·.issued?) = s.connectOrder commands := by
  induction commands generalizing s with
  | nil => rfl
  | cons command commands ih =>
      cases command with
      | connect listener => exact congrArg (s.nextId :: ·) (ih _)
      | disconnect id => exact ih _

theorem transcript_append (s : Signal β) (first second : List (SignalCommand β)) :
    s.transcript (first ++ second) = s.transcript first ++ (s.run first).transcript second := by
  induction first generalizing s with
  | nil => rfl
  | cons command commands ih =>
      rw [List.cons_append, transcript, transcript, ih]
      rfl

theorem replay_append (s : Signal β) (first second : List (SignalRecord β)) :
    s.replay (first ++ second) = (s.replay first).replay second := by
  rw [replay, List.map_append, run_append]
  rfl

/-- The records are what the signal answers to the calls in them, and the calls lead to the other
signal. -/
structure Turns (s : Signal β) (records : List (SignalRecord β)) (after : Signal β) : Prop where
  answers : s.transcript (records.map (·.command)) = records
  table : after = s.replay records

namespace Turns

variable {s between after : Signal β} {first second records : List (SignalRecord β)}

theorem refl (s : Signal β) : s.Turns [] s := ⟨rfl, rfl⟩

theorem trans (hfirst : s.Turns first between) (hsecond : between.Turns second after) :
    s.Turns (first ++ second) after where
  answers := by
    have hbetween : s.run (first.map (·.command)) = between := hfirst.table.symm
    rw [List.map_append, transcript_append, hfirst.answers, hbetween, hsecond.answers]
  table := by rw [replay_append, ← hfirst.table, hsecond.table]

theorem step (s : Signal β) (command : SignalCommand β) :
    s.Turns [s.answer command] (s.step command) := by
  constructor
  · simp [transcript]
  · simp [replay, run]

end Turns

end Signal

mutual

def Deed.records : Deed β α → List (SignalRecord β)
  | .connected id listener => [.connected id listener]
  | .disconnected id removed => [.disconnected id removed]
  | .emitted _ calls => callRecords calls

def callRecords : List (ConnectionId × List (Deed β α)) → List (SignalRecord β)
  | [] => []
  | (_, deeds) :: calls => deedRecords deeds ++ callRecords calls

def deedRecords : List (Deed β α) → List (SignalRecord β)
  | [] => []
  | deed :: deeds => deed.records ++ deedRecords deeds

end

namespace Reaction

/-- One deed of a listener. What it reads and changes of the shared state on the way is no deed. -/
def Does (emission : Stage σ β → α → Option (Calls β α × Stage σ β)) (stage : Stage σ β) :
    Deed β α → Stage σ β → Prop
  | .connected id listener, after =>
      id = stage.signal.nextId ∧ after = { stage with signal := stage.signal.connect listener }
  | .disconnected id removed, after =>
      removed = stage.signal.isLive id ∧
        after = { stage with signal := stage.signal.disconnect id }
  | .emitted argument calls, after => emission stage argument = some (calls, after)

variable {emission : Stage σ β → α → Option (Calls β α × Stage σ β)} {stage after : Stage σ β}
  {deed : Deed β α} {deeds : List (Deed β α)}

theorem signal_of_run_nil {reaction : Reaction σ β α}
    (h : reaction.run emission stage = some ([], after)) : after.signal = stage.signal := by
  induction reaction generalizing stage with
  | done =>
      cases h
      rfl
  | update f next ih =>
      have hsignal := ih h
      exact hsignal
  | consult next ih => exact ih _ h
  | connect listener next ih =>
      simp only [run, Option.bind_eq_bind, Option.bind_eq_some_iff] at h
      obtain ⟨_, -, heq⟩ := h
      cases heq
  | disconnect id next ih =>
      simp only [run, Option.bind_eq_bind, Option.bind_eq_some_iff] at h
      obtain ⟨_, -, heq⟩ := h
      cases heq
  | emit argument next ih =>
      simp only [run, Option.bind_eq_bind, Option.bind_eq_some_iff] at h
      obtain ⟨_, -, _, -, heq⟩ := h
      cases heq

theorem run_eq_cons {reaction : Reaction σ β α}
    (h : reaction.run emission stage = some (deed :: deeds, after)) :
    ∃ start between rest, start.signal = stage.signal ∧ Does emission start deed between ∧
      run emission rest between = some (deeds, after) := by
  induction reaction generalizing stage with
  | done => cases h
  | update f next ih =>
      obtain ⟨start, between, rest, hsignal, hdoes, hrest⟩ := ih h
      exact ⟨start, between, rest, hsignal, hdoes, hrest⟩
  | consult next ih => exact ih _ h
  | connect listener next ih =>
      simp only [run, Option.bind_eq_bind, Option.bind_eq_some_iff] at h
      obtain ⟨⟨others, last⟩, hrest, heq⟩ := h
      cases heq
      exact ⟨stage, _, _, rfl, ⟨rfl, rfl⟩, hrest⟩
  | disconnect id next ih =>
      simp only [run, Option.bind_eq_bind, Option.bind_eq_some_iff] at h
      obtain ⟨⟨others, last⟩, hrest, heq⟩ := h
      cases heq
      exact ⟨stage, _, _, rfl, ⟨rfl, rfl⟩, hrest⟩
  | emit argument next ih =>
      simp only [run, Option.bind_eq_bind, Option.bind_eq_some_iff] at h
      obtain ⟨⟨calls, between⟩, hemission, ⟨others, last⟩, hrest, heq⟩ := h
      cases heq
      exact ⟨stage, between, _, rfl, hemission, hrest⟩

theorem turns_of_does
    (hemission : ∀ {stage argument calls after}, emission stage argument = some (calls, after) →
      stage.signal.Turns (callRecords calls) after.signal)
    (h : Does emission stage deed after) : stage.signal.Turns deed.records after.signal := by
  cases deed with
  | connected id listener =>
      obtain ⟨rfl, rfl⟩ := h
      exact .step stage.signal (.connect listener)
  | disconnected id removed =>
      obtain ⟨rfl, rfl⟩ := h
      exact .step stage.signal (.disconnect id)
  | emitted argument calls => exact hemission h

theorem turns_of_run
    (hemission : ∀ {stage argument calls after}, emission stage argument = some (calls, after) →
      stage.signal.Turns (callRecords calls) after.signal)
    {reaction : Reaction σ β α} (h : reaction.run emission stage = some (deeds, after)) :
    stage.signal.Turns (deedRecords deeds) after.signal := by
  induction deeds generalizing reaction stage with
  | nil =>
      rw [signal_of_run_nil h]
      exact .refl _
  | cons deed deeds ih =>
      obtain ⟨start, between, rest, hsignal, hdoes, hrest⟩ := run_eq_cons h
      rw [← hsignal]
      exact (turns_of_does hemission hdoes).trans (ih hrest)

end Reaction

inductive CallsInTurn (call : β → Stage σ β → List (Deed β α) → Stage σ β → Prop) :
    List (ConnectionId × β) → Stage σ β → Calls β α → Stage σ β → Prop
  | nil {stage : Stage σ β} : CallsInTurn call [] stage [] stage
  | cons {id : ConnectionId} {listener : β} {deeds : List (Deed β α)}
      {rest : List (ConnectionId × β)} {calls : Calls β α} {stage between after : Stage σ β}
      (first : call listener stage deeds between)
      (others : CallsInTurn call rest between calls after) :
      CallsInTurn call ((id, listener) :: rest) stage ((id, deeds) :: calls) after

namespace CallsInTurn

variable {call other : β → Stage σ β → List (Deed β α) → Stage σ β → Prop}
  {connections : List (ConnectionId × β)} {stage after : Stage σ β} {calls : Calls β α}

theorem imp (h : CallsInTurn call connections stage calls after)
    (hcall : ∀ {listener stage deeds after}, call listener stage deeds after →
      other listener stage deeds after) : CallsInTurn other connections stage calls after := by
  induction h with
  | nil => exact .nil
  | cons first _ ih => exact .cons (hcall first) ih

theorem map_fst (h : CallsInTurn call connections stage calls after) :
    calls.map (·.1) = connections.map (·.1) := by
  induction h with
  | nil => rfl
  | cons _ _ ih => rw [List.map_cons, List.map_cons, ih]

theorem append {first second : List (ConnectionId × β)} {calls' : Calls β α} {between : Stage σ β}
    (h : CallsInTurn call first stage calls between)
    (h' : CallsInTurn call second between calls' after) :
    CallsInTurn call (first ++ second) stage (calls ++ calls') after := by
  induction h with
  | nil => exact h'
  | cons first _ ih => exact .cons first (ih h')

theorem of_append {first second : List (ConnectionId × β)}
    (h : CallsInTurn call (first ++ second) stage calls after) :
    ∃ earlier later between, CallsInTurn call first stage earlier between ∧
      CallsInTurn call second between later after := by
  induction first generalizing stage calls with
  | nil => exact ⟨[], calls, stage, .nil, h⟩
  | cons connection first ih =>
      cases h with
      | cons hcall others =>
          obtain ⟨earlier, later, between, hfirst, hsecond⟩ := ih others
          exact ⟨_, later, between, .cons hcall hfirst, hsecond⟩

theorem split {earlier later : Calls β α} {id : ConnectionId} {deeds : List (Deed β α)}
    (h : CallsInTurn call connections stage (earlier ++ (id, deeds) :: later) after) :
    ∃ before listener rest start finish, connections = before ++ (id, listener) :: rest ∧
      CallsInTurn call before stage earlier start ∧ call listener start deeds finish := by
  induction earlier generalizing connections stage with
  | nil =>
      cases h with
      | cons first _ => exact ⟨[], _, _, _, _, rfl, .nil, first⟩
  | cons _ earlier ih =>
      cases h with
      | cons first others =>
          obtain ⟨before, listener, rest, start, finish, rfl, hbefore, hcall⟩ := ih others
          exact ⟨_, listener, rest, start, finish, rfl, .cons first hbefore, hcall⟩

theorem turns (h : CallsInTurn call connections stage calls after)
    (hcall : ∀ {listener stage deeds after}, call listener stage deeds after →
      stage.signal.Turns (deedRecords deeds) after.signal) :
    stage.signal.Turns (callRecords calls) after.signal := by
  induction h with
  | nil => exact .refl _
  | cons first _ ih => exact (hcall first).trans ih

end CallsInTurn

namespace Stage

theorem callAll_eq_some_iff {call : β → Stage σ β → Option (List (Deed β α) × Stage σ β)}
    {connections : List (ConnectionId × β)} {stage after : Stage σ β} {calls : Calls β α} :
    callAll call connections stage = some (calls, after) ↔
      CallsInTurn (fun listener stage deeds after => call listener stage = some (deeds, after))
        connections stage calls after := by
  constructor
  · intro h
    induction connections generalizing stage calls with
    | nil =>
        cases h
        exact .nil
    | cons connection rest ih =>
        obtain ⟨id, listener⟩ := connection
        simp only [callAll, Option.bind_eq_bind, Option.bind_eq_some_iff] at h
        obtain ⟨⟨deeds, between⟩, hfirst, ⟨others, last⟩, hothers, heq⟩ := h
        cases heq
        exact .cons hfirst (ih hothers)
  · intro h
    induction h with
    | nil => rfl
    | cons first _ ih => simp [callAll, first, ih]

theorem turns_of_emit {react : β → α → Reaction σ β α} {depth : Nat} {stage after : Stage σ β}
    {argument : α} {calls : Calls β α} (h : emit react depth stage argument = some (calls, after)) :
    stage.signal.Turns (callRecords calls) after.signal := by
  induction depth generalizing stage argument calls after with
  | zero => cases h
  | succ depth ih => exact (callAll_eq_some_iff.1 h).turns (Reaction.turns_of_run ih)

end Stage

end DashboardFilters
