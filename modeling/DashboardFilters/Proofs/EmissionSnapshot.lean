import DashboardFilters.Proofs.SignalTranscript
import DashboardFilters.Signal.Tagged
import Mathlib.Data.Nat.Find

/-!
Emission as a snapshot. Whatever the called listeners do to the signal, an emission calls what was
connected when it began, and so does every emission in the middle of it, each for the connections of
its own beginning. The bound on the nesting decides only whether there is a result: there is one as
soon as emissions do not begin inside each other without end.
-/

namespace DashboardFilters

variable {σ β α : Type}

theorem Reaction.run_mono {emission other : Stage σ β → α → Option (Calls β α × Stage σ β)}
    (hemission : ∀ {stage argument result}, emission stage argument = some result →
      other stage argument = some result)
    {reaction : Reaction σ β α} {stage : Stage σ β} {result : List (Deed β α) × Stage σ β}
    (h : reaction.run emission stage = some result) : reaction.run other stage = some result := by
  induction reaction generalizing stage result with
  | done => exact h
  | update f next ih => exact ih h
  | consult next ih => exact ih _ h
  | connect listener next ih =>
      simp only [run, Option.bind_eq_bind, Option.bind_eq_some_iff] at h ⊢
      obtain ⟨others, hothers, heq⟩ := h
      exact ⟨others, ih _ hothers, heq⟩
  | disconnect id next ih =>
      simp only [run, Option.bind_eq_bind, Option.bind_eq_some_iff] at h ⊢
      obtain ⟨others, hothers, heq⟩ := h
      exact ⟨others, ih _ hothers, heq⟩
  | emit argument next ih =>
      simp only [run, Option.bind_eq_bind, Option.bind_eq_some_iff] at h ⊢
      obtain ⟨emitted, hemitted, others, hothers, heq⟩ := h
      exact ⟨emitted, hemission hemitted, others, ih _ hothers, heq⟩

namespace Stage

variable {react : β → α → Reaction σ β α} {depth more : Nat} {stage : Stage σ β} {argument : α}
  {result : Calls β α × Stage σ β}

theorem emit_succ (h : emit react depth stage argument = some result) :
    emit react (depth + 1) stage argument = some result := by
  induction depth generalizing stage argument result with
  | zero => cases h
  | succ depth ih =>
      exact callAll_eq_some_iff.2 ((callAll_eq_some_iff.1 h).imp (Reaction.run_mono ih))

theorem emit_mono (hmore : depth ≤ more) (h : emit react depth stage argument = some result) :
    emit react more stage argument = some result := by
  induction hmore with
  | refl => exact h
  | step _ ih => exact emit_succ ih

/-- The emission has this result, however deep emissions nest. -/
def Emits (react : β → α → Reaction σ β α) (stage : Stage σ β) (argument : α) (calls : Calls β α)
    (after : Stage σ β) : Prop :=
  ∃ depth, emit react depth stage argument = some (calls, after)

end Stage

open Stage

namespace Reaction

variable {react : β → α → Reaction σ β α} {stage between after : Stage σ β}
  {deeds : List (Deed β α)}

def Performs (react : β → α → Reaction σ β α) (reaction : Reaction σ β α) (stage : Stage σ β)
    (deeds : List (Deed β α)) (after : Stage σ β) : Prop :=
  ∃ depth, reaction.run (Stage.emit react depth) stage = some (deeds, after)

theorem run_emit_mono {depth more : Nat} (hmore : depth ≤ more) {reaction : Reaction σ β α}
    {result : List (Deed β α) × Stage σ β}
    (h : reaction.run (Stage.emit react depth) stage = some result) :
    reaction.run (Stage.emit react more) stage = some result :=
  run_mono (Stage.emit_mono hmore) h

theorem Performs.unique {reaction : Reaction σ β α} {deeds' : List (Deed β α)}
    {after' : Stage σ β} (h : reaction.Performs react stage deeds after)
    (h' : reaction.Performs react stage deeds' after') : (deeds, after) = (deeds', after') := by
  obtain ⟨depth, hrun⟩ := h
  obtain ⟨depth', hrun'⟩ := h'
  have hfirst := run_emit_mono (Nat.le_max_left depth depth') hrun
  have hsecond := run_emit_mono (Nat.le_max_right depth depth') hrun'
  exact Option.some.inj (hfirst.symm.trans hsecond)

theorem Performs.connect {listener : β} {next : ConnectionId → Reaction σ β α}
    (h : (next stage.signal.nextId).Performs react
      { stage with signal := stage.signal.connect listener } deeds after) :
    (Reaction.connect listener next).Performs react stage
      (.connected stage.signal.nextId listener :: deeds) after := by
  obtain ⟨depth, hrun⟩ := h
  exact ⟨depth, by simp [run, hrun]⟩

theorem Performs.disconnect {id : ConnectionId} {next : Bool → Reaction σ β α}
    (h : (next (stage.signal.isLive id)).Performs react
      { stage with signal := stage.signal.disconnect id } deeds after) :
    (Reaction.disconnect id next).Performs react stage
      (.disconnected id (stage.signal.isLive id) :: deeds) after := by
  obtain ⟨depth, hrun⟩ := h
  exact ⟨depth, by simp [run, hrun]⟩

theorem Performs.emit {argument : α} {next : Nat → Reaction σ β α} {calls : Calls β α}
    (hemits : Emits react stage argument calls between)
    (h : (next calls.length).Performs react between deeds after) :
    (Reaction.emit argument next).Performs react stage (.emitted argument calls :: deeds)
      after := by
  obtain ⟨depth, hemit⟩ := hemits
  obtain ⟨depth', hrun⟩ := h
  have hfirst := emit_mono (Nat.le_max_left depth depth') hemit
  have hrest := run_emit_mono (Nat.le_max_right depth depth') hrun
  exact ⟨max depth depth', by simp [run, hfirst, hrest]⟩

end Reaction

namespace CallsInTurn

variable {react : β → α → Reaction σ β α} {reply : β → Reaction σ β α}
  {connections : List (ConnectionId × β)} {stage after : Stage σ β} {calls : Calls β α}

theorem exists_depth
    (h : CallsInTurn (fun listener => (reply listener).Performs react) connections stage calls
      after) :
    ∃ depth, callAll (fun listener => (reply listener).run (Stage.emit react depth)) connections
      stage = some (calls, after) := by
  induction h with
  | nil => exact ⟨0, rfl⟩
  | cons first _ ih =>
      obtain ⟨depth, hfirst⟩ := first
      obtain ⟨depth', hrest⟩ := ih
      have hcalls := (callAll_eq_some_iff.1 hrest).imp
        (Reaction.run_emit_mono (Nat.le_max_right depth depth'))
      have hcall := Reaction.run_emit_mono (Nat.le_max_left depth depth') hfirst
      exact ⟨max depth depth', callAll_eq_some_iff.2 (.cons hcall hcalls)⟩

theorem unique {calls' : Calls β α} {after' : Stage σ β}
    (h : CallsInTurn (fun listener => (reply listener).Performs react) connections stage calls
      after)
    (h' : CallsInTurn (fun listener => (reply listener).Performs react) connections stage calls'
      after') : (calls, after) = (calls', after') := by
  induction h generalizing calls' with
  | nil =>
      cases h'
      rfl
  | cons first _ ih =>
      cases h' with
      | cons first' others' =>
          cases first.unique first'
          cases ih others'
          rfl

end CallsInTurn

namespace Stage

variable {react : β → α → Reaction σ β α} {stage after : Stage σ β} {argument : α}
  {calls : Calls β α}

theorem emits_iff : Emits react stage argument calls after ↔
    CallsInTurn (fun listener => (react listener argument).Performs react) stage.signal.live stage
      calls after := by
  constructor
  · rintro ⟨_ | depth, hemit⟩
    · cases hemit
    · exact (callAll_eq_some_iff.1 hemit).imp fun hcall => ⟨depth, hcall⟩
  · intro h
    obtain ⟨depth, hcalls⟩ := h.exists_depth
    exact ⟨depth + 1, hcalls⟩

theorem Emits.unique {calls' : Calls β α} {after' : Stage σ β}
    (h : Emits react stage argument calls after) (h' : Emits react stage argument calls' after') :
    (calls, after) = (calls', after') :=
  (emits_iff.1 h).unique (emits_iff.1 h')

theorem Emits.exists_nesting (h : Emits react stage argument calls after) :
    ∃ nesting, ∀ depth, emit react depth stage argument =
      if nesting ≤ depth then some (calls, after) else none := by
  classical
  refine ⟨Nat.find h, fun depth => ?_⟩
  split
  · rename_i hle
    exact emit_mono hle (Nat.find_spec h)
  · rename_i hlt
    cases hemit : emit react depth stage argument with
    | none => rfl
    | some result =>
        cases h.unique ⟨depth, hemit⟩
        exact absurd hemit (Nat.find_min h (Nat.lt_of_not_le hlt))

end Stage

namespace Reaction

def Reaches (react : β → α → Reaction σ β α) (inner : Stage σ β × α) :
    Reaction σ β α → Stage σ β → Prop
  | done, _ => False
  | update f next, stage => next.Reaches react inner { stage with shared := f stage.shared }
  | consult next, stage => (next stage.shared).Reaches react inner stage
  | connect listener next, stage =>
      (next stage.signal.nextId).Reaches react inner
        { stage with signal := stage.signal.connect listener }
  | disconnect id next, stage =>
      (next (stage.signal.isLive id)).Reaches react inner
        { stage with signal := stage.signal.disconnect id }
  | emit argument next, stage =>
      inner = (stage, argument) ∨ ∃ calls between, Emits react stage argument calls between ∧
        (next calls.length).Reaches react inner between

end Reaction

/-- One of the listeners that the outer emission calls begins the inner one. -/
def Stage.Begins (react : β → α → Reaction σ β α) (inner outer : Stage σ β × α) : Prop :=
  ∃ earlier id listener later calls between,
    outer.1.signal.live = earlier ++ (id, listener) :: later ∧
    CallsInTurn (fun listener => (react listener outer.2).Performs react) earlier outer.1 calls
      between ∧
    (react listener outer.2).Reaches react inner between

/-- Emissions do not begin inside each other without end. -/
def NestsFinitely (react : β → α → Reaction σ β α) (stage : Stage σ β) (argument : α) : Prop :=
  Acc (Stage.Begins react) (stage, argument)

section

variable {react : β → α → Reaction σ β α} {stage : Stage σ β} {argument : α}

theorem Reaction.exists_performs {reaction : Reaction σ β α}
    (h : ∀ inner, reaction.Reaches react inner stage →
      ∃ calls after, Emits react inner.1 inner.2 calls after) :
    ∃ deeds after, reaction.Performs react stage deeds after := by
  induction reaction generalizing stage with
  | done => exact ⟨[], stage, 0, rfl⟩
  | update f next ih => exact ih h
  | consult next ih => exact ih _ h
  | connect listener next ih =>
      obtain ⟨deeds, after, hperforms⟩ := ih _ h
      exact ⟨_, after, hperforms.connect⟩
  | disconnect id next ih =>
      obtain ⟨deeds, after, hperforms⟩ := ih _ h
      exact ⟨_, after, hperforms.disconnect⟩
  | emit argument next ih =>
      obtain ⟨calls, between, hemits⟩ := h (stage, argument) (.inl rfl)
      obtain ⟨deeds, after, hperforms⟩ :=
        ih calls.length fun inner hinner => h inner (.inr ⟨calls, between, hemits, hinner⟩)
      exact ⟨_, after, hperforms.emit hemits⟩

theorem Reaction.emits_of_reaches {reaction : Reaction σ β α} {depth : Nat}
    {result : List (Deed β α) × Stage σ β} {inner : Stage σ β × α}
    (h : reaction.run (Stage.emit react depth) stage = some result)
    (hinner : reaction.Reaches react inner stage) :
    (Stage.emit react depth inner.1 inner.2).isSome := by
  induction reaction generalizing stage result with
  | done => cases hinner
  | update f next ih => exact ih h hinner
  | consult next ih => exact ih _ h hinner
  | connect listener next ih =>
      simp only [run, Option.bind_eq_bind, Option.bind_eq_some_iff] at h
      obtain ⟨_, hrest, -⟩ := h
      exact ih _ hrest hinner
  | disconnect id next ih =>
      simp only [run, Option.bind_eq_bind, Option.bind_eq_some_iff] at h
      obtain ⟨_, hrest, -⟩ := h
      exact ih _ hrest hinner
  | emit argument next ih =>
      simp only [run, Option.bind_eq_bind, Option.bind_eq_some_iff] at h
      obtain ⟨⟨calls, between⟩, hemit, _, hrest, -⟩ := h
      rcases hinner with rfl | ⟨calls', between', hemits, hinner⟩
      · exact Option.isSome_of_eq_some hemit
      · cases hemits.unique ⟨depth, hemit⟩
        exact ih _ hrest hinner

variable {outer : Stage σ β × α}

theorem CallsInTurn.exists_of_begins {connections before : List (ConnectionId × β)}
    {calls : Calls β α} {between : Stage σ β}
    (hlive : outer.1.signal.live = before ++ connections)
    (hbefore : CallsInTurn (fun listener => (react listener outer.2).Performs react) before outer.1
      calls between)
    (h : ∀ inner, Stage.Begins react inner outer →
      ∃ calls after, Emits react inner.1 inner.2 calls after) :
    ∃ calls after, CallsInTurn (fun listener => (react listener outer.2).Performs react)
      connections between calls after := by
  induction connections generalizing before calls between with
  | nil => exact ⟨[], between, .nil⟩
  | cons connection rest ih =>
      obtain ⟨id, listener⟩ := connection
      obtain ⟨deeds, start, hperforms⟩ := Reaction.exists_performs fun inner hinner =>
        h inner ⟨before, id, listener, rest, calls, between, hlive, hbefore, hinner⟩
      have hlive' : outer.1.signal.live = (before ++ [(id, listener)]) ++ rest := by
        rw [hlive, List.append_assoc]
        rfl
      obtain ⟨others, after, hothers⟩ := ih hlive' (hbefore.append (.cons hperforms .nil))
      exact ⟨_, after, .cons hperforms hothers⟩

theorem exists_emits_of_acc (h : Acc (Stage.Begins react) outer) :
    ∃ calls after, Emits react outer.1 outer.2 calls after := by
  induction h with
  | intro outer _ ih =>
      obtain ⟨calls, after, hcalls⟩ :=
        CallsInTurn.exists_of_begins (List.nil_append _).symm .nil ih
      exact ⟨calls, after, emits_iff.2 hcalls⟩

theorem acc_of_isSome_emit {depth : Nat} (h : (Stage.emit react depth outer.1 outer.2).isSome) :
    Acc (Stage.Begins react) outer := by
  induction depth generalizing outer with
  | zero => cases h
  | succ depth ih =>
      refine ⟨_, fun inner hinner => ih ?_⟩
      obtain ⟨earlier, id, listener, later, calls, between, hlive, hearlier, hreaches⟩ := hinner
      obtain ⟨⟨_, _⟩, hemit⟩ := Option.isSome_iff_exists.1 h
      have hcalls := callAll_eq_some_iff.1 hemit
      rw [hlive] at hcalls
      obtain ⟨_, _, between', hbefore, hrest⟩ := hcalls.of_append
      cases hearlier.unique (hbefore.imp fun hcall => ⟨depth, hcall⟩)
      cases hrest with
      | cons hcall _ => exact Reaction.emits_of_reaches hcall hreaches

end

theorem nestsFinitely_iff {react : β → α → Reaction σ β α} {stage : Stage σ β} {argument : α} :
    NestsFinitely react stage argument ↔
      ∃ depth, (Stage.emit react depth stage argument).isSome := by
  constructor
  · intro h
    obtain ⟨calls, after, depth, hemit⟩ := exists_emits_of_acc h
    exact ⟨depth, Option.isSome_of_eq_some hemit⟩
  · rintro ⟨depth, hemit⟩
    exact acc_of_isSome_emit hemit

/-- An emission in what a listener did, and the calls of connect and disconnect up to its begin. -/
inductive EmissionIn : List (Deed β α) → List (SignalRecord β) → α → Calls β α → Prop
  | first {argument : α} {calls : Calls β α} {deeds : List (Deed β α)} :
      EmissionIn (.emitted argument calls :: deeds) [] argument calls
  | inner {argument nested : α} {earlier later calls : Calls β α} {id : ConnectionId}
      {made deeds : List (Deed β α)} {before : List (SignalRecord β)}
      (h : EmissionIn made before nested calls) :
      EmissionIn (.emitted argument (earlier ++ (id, made) :: later) :: deeds)
        (callRecords earlier ++ before) nested calls
  | later {deed : Deed β α} {deeds : List (Deed β α)} {before : List (SignalRecord β)}
      {argument : α} {calls : Calls β α} (h : EmissionIn deeds before argument calls) :
      EmissionIn (deed :: deeds) (deed.records ++ before) argument calls

theorem EmissionIn.exists_emits {react : β → α → Reaction σ β α} {deeds : List (Deed β α)}
    {before : List (SignalRecord β)} {argument : α} {calls : Calls β α}
    (h : EmissionIn deeds before argument calls) {reaction : Reaction σ β α}
    {stage after : Stage σ β} (hperforms : reaction.Performs react stage deeds after) :
    ∃ start finish, start.signal = stage.signal.replay before ∧
      Emits react start argument calls finish := by
  induction h generalizing reaction stage after with
  | first =>
      obtain ⟨depth, hrun⟩ := hperforms
      obtain ⟨start, finish, _, hsignal, hemit, -⟩ := Reaction.run_eq_cons hrun
      exact ⟨start, finish, hsignal, depth, hemit⟩
  | inner _ ih =>
      obtain ⟨depth, hrun⟩ := hperforms
      obtain ⟨start, finish, _, hsignal, hemit, -⟩ := Reaction.run_eq_cons hrun
      obtain ⟨_, listener, _, mid, _, -, hearlier, hmade⟩ := (emits_iff.1 ⟨depth, hemit⟩).split
      obtain ⟨nested, finish', hnested, hemits⟩ := ih hmade
      have hmid := (hearlier.turns fun ⟨_, hrun⟩ => Reaction.turns_of_run turns_of_emit hrun).table
      refine ⟨nested, finish', ?_, hemits⟩
      rw [hnested, hmid, hsignal, Signal.replay_append]
  | later _ ih =>
      obtain ⟨depth, hrun⟩ := hperforms
      obtain ⟨start, between, rest, hsignal, hdoes, hrest⟩ := Reaction.run_eq_cons hrun
      obtain ⟨nested, finish, hnested, hemits⟩ := ih ⟨depth, hrest⟩
      have hbetween := (Reaction.turns_of_does turns_of_emit hdoes).table
      refine ⟨nested, finish, ?_, hemits⟩
      rw [hnested, hbetween, hsignal, Signal.replay_append]

/-- The calls of an emission, whatever the listeners do: they are those of the connections that were
live when it began, also of those that are disconnected before their turn, and of none that is made
meanwhile. -/
structure Stage.Snapshot (react : β → α → Reaction σ β α) (stage : Stage σ β) (argument : α)
    (calls : Calls β α) (after : Stage σ β) : Prop where
  inTurn : CallsInTurn (fun listener => (react listener argument).Performs react)
    stage.signal.live stage calls after
  live : ∀ id, id ∈ calls.map (·.1) ↔ stage.signal.isLive id = true
  once : (calls.map (·.1)).Nodup
  count : calls.length = stage.signal.connections.size
  fresh : ∀ id ∈ (callRecords calls).filterMap (·.issued?), id ∉ calls.map (·.1)
  /-- The calls of connect and disconnect made meanwhile lead to the connections afterwards, and
  their answers are those that these calls get in this order. -/
  turns : stage.signal.Turns (callRecords calls) after.signal

theorem Stage.Emits.snapshot {react : β → α → Reaction σ β α} {stage after : Stage σ β}
    {argument : α} {calls : Calls β α} (h : Emits react stage argument calls after) :
    Stage.Snapshot react stage argument calls after := by
  have hinTurn := emits_iff.1 h
  have hids : calls.map (·.1) = stage.signal.liveIds := hinTurn.map_fst
  obtain ⟨depth, hemit⟩ := h
  have hturns := turns_of_emit hemit
  constructor
  case inTurn => exact hinTurn
  case live =>
    intro id
    rw [hids, Signal.mem_liveIds_iff]
  case once =>
    rw [hids]
    exact stage.signal.nodup_liveIds
  case count =>
    have hlength := congrArg List.length hids
    rw [List.length_map] at hlength
    exact hlength.trans (List.length_map _)
  case fresh =>
    intro id hid hcalled
    rw [← hturns.answers, Signal.filterMap_issued?_transcript] at hid
    rw [hids, Signal.mem_liveIds_iff] at hcalled
    exact Signal.not_issued_of_mem_connectOrder hid (Signal.issued_of_isLive hcalled)
  case turns => exact hturns

structure Stage.SnapshotsThroughout (react : β → α → Reaction σ β α) (stage : Stage σ β)
    (argument : α) (calls : Calls β α) (after : Stage σ β) : Prop where
  result : ∃ nesting, ∀ depth, Stage.emit react depth stage argument =
    if nesting ≤ depth then some (calls, after) else none
  outer : Stage.Snapshot react stage argument calls after
  inner : ∀ before nested innerCalls,
    EmissionIn [.emitted argument calls] before nested innerCalls →
      ∃ start finish, start.signal = stage.signal.replay before ∧
        Stage.Snapshot react start nested innerCalls finish

/-- Unless emissions begin inside each other without end, an emission calls the connections that
are live at its begin, and so do all emissions in the middle of it, whatever the listeners do. -/
theorem snapshots_emission {react : β → α → Reaction σ β α} {stage : Stage σ β} {argument : α}
    (h : NestsFinitely react stage argument) :
    ∃ calls after, Stage.SnapshotsThroughout react stage argument calls after := by
  obtain ⟨calls, after, hemits⟩ := exists_emits_of_acc h
  refine ⟨calls, after, hemits.exists_nesting, hemits.snapshot, ?_⟩
  intro before nested innerCalls hin
  have hperforms : (Reaction.emit argument fun _ => Reaction.done).Performs react stage
      [.emitted argument calls] after := .emit hemits ⟨0, rfl⟩
  obtain ⟨start, finish, hstart, hinner⟩ := hin.exists_emits hperforms
  exact ⟨start, finish, hstart, hinner.snapshot⟩

/-- The first listener disconnects the second, connects a third and emits once more. -/
theorem snapshots_of_disconnecting :
    let exchange : Exchange := ({} : Exchange)
      |>.connect { tag := "a", disconnects := "b", connects := some { tag := "c" }, emits := "y" }
      |>.connect { tag := "b" }
    let stage : Stage TagBook TaggedListener :=
      { signal := exchange.signal, shared := exchange.book }
    NestsFinitely TaggedListener.react stage "x" ∧
      ∃ calls after, Stage.SnapshotsThroughout TaggedListener.react stage "x" calls after := by
  intro exchange stage
  have hnests : NestsFinitely TaggedListener.react stage "x" :=
    nestsFinitely_iff.2 ⟨2, Exchange.isSome_emit stage "x"⟩
  clear_value stage
  exact ⟨hnests, snapshots_emission hnests⟩

end DashboardFilters
