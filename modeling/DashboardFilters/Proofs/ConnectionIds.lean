import DashboardFilters.Proofs.SignalTranscript
import DashboardFilters.Signal.Tagged

/-!
Connection ids over the life of a signal. Positions go from one connection to the next, ids do not:
an id is live from the connect call that returned it to the first disconnect call for it, and after
that it stays invalid, whoever has its position. Calls that listeners make in the middle of an
emission count like all others.
-/

namespace DashboardFilters

variable {σ β α : Type}

theorem Arena.entries_erase (a : Arena α) (k : Arena.Key) :
    (a.erase k).entries = a.entries.filter fun entry => entry.1 ≠ k := by
  have hperm : (a.erase k).entries.Perm (a.entries.filter fun entry => entry.1 ≠ k) := by
    rw [List.perm_ext_iff_of_nodup (nodup_entries _) ((nodup_entries a).filter _)]
    rintro ⟨key, value⟩
    rw [List.mem_filter, mem_entries_iff, mem_entries_iff, get?_erase]
    by_cases hk : key = k <;> simp [hk]
  have hordered := List.pairwise_map.1 (a.erase k).pairwise_entries
  have hordered' := (List.pairwise_map.1 a.pairwise_entries).filter fun entry => entry.1 ≠ k
  refine hperm.eq_of_pairwise ?_ hordered hordered'
  intro entry other _ _ hlt hgt
  exact absurd hlt (Nat.lt_asymm hgt)

namespace SignalRecord

variable {records : List (SignalRecord β)} {id other : ConnectionId}

def Spares (records : List (SignalRecord β)) (id : ConnectionId) : Prop :=
  ∀ removed, .disconnected id removed ∉ records

/-- A connect call returned the id, and no disconnect call was made for it since. -/
def Holds (records : List (SignalRecord β)) (id : ConnectionId) : Prop :=
  ∃ earlier listener later, records = earlier ++ .connected id listener :: later ∧ Spares later id

@[simp] theorem spares_nil : Spares ([] : List (SignalRecord β)) id := by
  simp [Spares]

@[simp] theorem spares_connected_cons {listener : β} :
    Spares (.connected other listener :: records) id ↔ Spares records id := by
  simp [Spares]

@[simp] theorem spares_disconnected_cons {removed : Bool} :
    Spares (.disconnected other removed :: records) id ↔ id ≠ other ∧ Spares records id := by
  simp only [Spares, List.mem_cons, SignalRecord.disconnected.injEq, not_or, forall_and]
  exact and_congr_left' ⟨fun h hid => h removed ⟨hid, rfl⟩, fun hid _ h => hid h.1⟩

@[simp] theorem not_holds_nil : ¬ Holds ([] : List (SignalRecord β)) id := by
  rintro ⟨earlier, listener, later, heq, -⟩
  simp at heq

@[simp] theorem holds_connected_cons {listener : β} :
    Holds (.connected other listener :: records) id ↔
      (id = other ∧ Spares records id) ∨ Holds records id := by
  constructor
  · rintro ⟨_ | ⟨record, earlier⟩, listener', later, heq, hlater⟩
    · cases heq
      exact .inl ⟨rfl, hlater⟩
    · cases heq
      exact .inr ⟨earlier, listener', later, rfl, hlater⟩
  · rintro (⟨rfl, hrecords⟩ | ⟨earlier, listener', later, rfl, hlater⟩)
    · exact ⟨[], listener, records, rfl, hrecords⟩
    · exact ⟨_ :: earlier, listener', later, rfl, hlater⟩

@[simp] theorem holds_disconnected_cons {removed : Bool} :
    Holds (.disconnected other removed :: records) id ↔ Holds records id := by
  constructor
  · rintro ⟨_ | ⟨record, earlier⟩, listener, later, heq, hlater⟩
    · cases heq
    · cases heq
      exact ⟨earlier, listener, later, rfl, hlater⟩
  · rintro ⟨earlier, listener, later, rfl, hlater⟩
    exact ⟨_ :: earlier, listener, later, rfl, hlater⟩

end SignalRecord

open SignalRecord

namespace Signal

variable {s after : Signal β} {id : ConnectionId} {records : List (SignalRecord β)}

theorem isLive_run_iff (s : Signal β) (commands : List (SignalCommand β)) (id : ConnectionId) :
    (s.run commands).isLive id = true ↔
      (s.isLive id = true ∧ Spares (s.transcript commands) id) ∨
        Holds (s.transcript commands) id := by
  induction commands generalizing s with
  | nil => simp [run, transcript]
  | cons command commands ih =>
      have hrun : s.run (command :: commands) = (s.step command).run commands := rfl
      rw [hrun, ih, transcript]
      cases command with
      | connect listener =>
          simp only [step, answer, isLive_connect, spares_connected_cons, holds_connected_cons,
            Bool.or_eq_true, beq_iff_eq, or_and_right, or_assoc, or_left_comm]
      | disconnect other =>
          simp only [step, answer, isLive_disconnect, spares_disconnected_cons,
            holds_disconnected_cons, Bool.and_eq_true, bne_iff_ne, and_assoc, and_left_comm]

theorem transcript_eq_append_cons {commands : List (SignalCommand β)}
    {before later : List (SignalRecord β)} {record : SignalRecord β}
    (h : s.transcript commands = before ++ record :: later) :
    ∃ first command second, commands = first ++ command :: second ∧ before = s.transcript first ∧
      record = (s.run first).answer command ∧
      later = ((s.run first).step command).transcript second := by
  have hcommands := congrArg (List.map (·.command)) h
  rw [map_command_transcript, List.map_append, List.map_cons] at hcommands
  refine ⟨_, _, _, hcommands, ?_⟩
  rw [hcommands, transcript_append, transcript] at h
  have hlength : (s.transcript (before.map (·.command))).length = before.length := by
    rw [← List.length_map (·.command), map_command_transcript, List.length_map]
  obtain ⟨hbefore, hrest⟩ := List.append_inj h hlength
  obtain ⟨hrecord, hlater⟩ := List.cons.inj hrest
  exact ⟨hbefore.symm, hrecord.symm, hlater.symm⟩

structure KeepsIds (records : List (SignalRecord β)) (after : Signal β) : Prop where
  distinct : (records.filterMap (·.issued?)).Nodup
  live : ∀ id, after.isLive id = true ↔ Holds records id
  answer : ∀ before id removed later, records = before ++ .disconnected id removed :: later →
    (removed = true ↔ Holds before id)
  /-- What was removed is never returned again, and whoever disconnects it once more is told so. -/
  removed : ∀ before id later, records = before ++ .disconnected id true :: later →
    id ∉ later.filterMap (·.issued?) ∧
      (∀ removed, .disconnected id removed ∈ later → removed = false) ∧ after.isLive id = false
  others : ∀ id, (after.disconnect id).live = after.live.filter fun entry => entry.1 ≠ id

theorem retired_disconnect (h : s.isLive id = true) :
    (s.disconnect id).connections.Retired id := by
  refine ⟨Arena.issued_erase.2 (issued_of_isLive h), ?_⟩
  simp [disconnect, Arena.get?_erase]

theorem not_isLive_run_of_retired (h : s.connections.Retired id)
    (commands : List (SignalCommand β)) : (s.run commands).isLive id = false := by
  rw [isLive, (retired_run commands h).2]
  rfl

theorem answer_of_mem_transcript_of_retired {removed : Bool} {commands : List (SignalCommand β)}
    (h : s.connections.Retired id) (hmem : .disconnected id removed ∈ s.transcript commands) :
    removed = false := by
  obtain ⟨before, later, hsplit⟩ := List.append_of_mem hmem
  obtain ⟨first, command, second, -, -, hrecord, -⟩ := transcript_eq_append_cons hsplit
  cases command with
  | connect listener => cases hrecord
  | disconnect other =>
      cases hrecord
      exact not_isLive_run_of_retired h first

theorem keepsIds_transcript (commands : List (SignalCommand β)) :
    KeepsIds ((∅ : Signal β).transcript commands) ((∅ : Signal β).run commands) := by
  have hlive : ∀ (commands : List (SignalCommand β)) (id : ConnectionId),
      ((∅ : Signal β).run commands).isLive id = true ↔
        Holds ((∅ : Signal β).transcript commands) id := by
    intro commands id
    have hnone : (∅ : Signal β).isLive id = false := rfl
    rw [isLive_run_iff, hnone]
    simp
  constructor
  case distinct =>
    rw [filterMap_issued?_transcript]
    exact nodup_connectOrder _ _
  case live => exact hlive commands
  case answer =>
    intro before id removed later h
    obtain ⟨first, command, second, -, rfl, hrecord, -⟩ := transcript_eq_append_cons h
    cases command with
    | connect listener => cases hrecord
    | disconnect other =>
        cases hrecord
        exact hlive first id
  case removed =>
    intro before id later h
    obtain ⟨first, command, second, hcommands, -, hrecord, rfl⟩ := transcript_eq_append_cons h
    cases command with
    | connect listener => cases hrecord
    | disconnect other =>
        obtain ⟨rfl, hanswer⟩ := SignalRecord.disconnected.inj hrecord
        have hretired := retired_disconnect hanswer.symm
        refine ⟨?_, fun removed hmem => answer_of_mem_transcript_of_retired hretired hmem, ?_⟩
        · rw [filterMap_issued?_transcript]
          exact fun hmem => not_issued_of_mem_connectOrder hmem hretired.1
        · rw [hcommands, run_append]
          exact not_isLive_run_of_retired hretired second
  case others => exact fun id => Arena.entries_erase _ id

end Signal

open Signal

/-- Ids are never confused: whatever calls of connect and disconnect are made to a new signal, and
when a host and the listeners of its emissions make the calls, these are a transcript as well. -/
theorem connection_ids_kept {σ β α : Type} (commands : List (SignalCommand β)) :
    KeepsIds ((∅ : Signal β).transcript commands) ((∅ : Signal β).run commands) ∧
    ∀ (react : β → α → Reaction σ β α) depth (host : Reaction σ β α) shared deeds after,
      host.run (Stage.emit react depth) { signal := ∅, shared } = some (deeds, after) →
        (∃ made, deedRecords deeds = (∅ : Signal β).transcript made ∧
          after.signal = (∅ : Signal β).run made) ∧ KeepsIds (deedRecords deeds) after.signal := by
  refine ⟨keepsIds_transcript commands, ?_⟩
  intro react depth host shared deeds after hrun
  have hturns := Reaction.turns_of_run Stage.turns_of_emit hrun
  refine ⟨⟨_, hturns.answers.symm, hturns.table⟩, ?_⟩
  rw [← hturns.answers, hturns.table]
  exact keepsIds_transcript _

/-- A listener gives itself up and connects another one, which takes its position. -/
theorem connection_ids_kept_of_succeeding :
    let host : TaggedReaction :=
      .connect { tag := "a", disconnects := "a", connects := some { tag := "b" } } fun id =>
        .update (·.remember "a" id) (.emit "x" fun _ => .disconnect id fun _ => .done)
    ∃ deeds after,
      host.run (Stage.emit TaggedListener.react 2) { signal := ∅, shared := {} } =
        some (deeds, after) ∧
      (∃ made, deedRecords deeds = (∅ : Signal TaggedListener).transcript made ∧
        after.signal = (∅ : Signal TaggedListener).run made) ∧
      KeepsIds (deedRecords deeds) after.signal := by
  intro host
  have hemits : host.EmitsOnly fun _ => True := fun _ => ⟨trivial, fun _ _ => trivial⟩
  obtain ⟨⟨deeds, after⟩, hrun⟩ := Option.isSome_iff_exists.1
    (host.isSome_run (fun stage argument _ => Exchange.isSome_emit stage argument) hemits
      { signal := ∅, shared := {} })
  exact ⟨deeds, after, hrun, (connection_ids_kept []).2 _ _ _ _ _ _ hrun⟩

end DashboardFilters
