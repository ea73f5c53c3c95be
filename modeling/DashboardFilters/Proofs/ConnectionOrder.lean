import DashboardFilters.Proofs.ArenaKeys
import DashboardFilters.Signal.Emission

/-!
The order of the calls of an emission. Connections are called by position, and a connection may have
taken a position that another one left. So calls come in the order of the connect calls exactly when
no connection that is still there took a position below one that was, and is, there too.
-/

namespace DashboardFilters

theorem Arena.position_lt_nextKey {α : Type} {a : Arena α} {k : Arena.Key}
    (hfreed : a.freed = []) (h : (a.get? k).isSome) : k.position < a.nextKey.position := by
  obtain ⟨cell, hcell, -⟩ := Arena.exists_cell_of_isSome_get? h
  have hnext : a.nextKey.position = a.cells.length := by
    simp [Arena.nextKey, Arena.nextPosition, hfreed]
  rw [hnext]
  exact (List.getElem?_eq_some_iff.1 hcell).1

theorem Arena.freed_insert {α : Type} {a : Arena α} (hfreed : a.freed = []) (value : α) :
    (a.insert value).freed = [] := by
  unfold Arena.insert
  split
  · rfl
  · rename_i hcons
    rw [hfreed] at hcons
    cases hcons

inductive SignalCommand (β : Type) where
  | connect (listener : β)
  | disconnect (id : ConnectionId)

namespace Signal

variable {β : Type} {s : Signal β} {id : ConnectionId}

def step (s : Signal β) : SignalCommand β → Signal β
  | .connect listener => s.connect listener
  | .disconnect id => s.disconnect id

def run (s : Signal β) (commands : List (SignalCommand β)) : Signal β :=
  commands.foldl step s

def connectOrder (s : Signal β) : List (SignalCommand β) → List ConnectionId
  | [] => []
  | .connect listener :: commands => s.nextId :: (s.connect listener).connectOrder commands
  | .disconnect id :: commands => (s.disconnect id).connectOrder commands

def liveIds (s : Signal β) : List ConnectionId :=
  s.live.map (·.1)

theorem mem_liveIds_iff : id ∈ s.liveIds ↔ s.isLive id = true := by
  rw [liveIds, isLive, Option.isSome_iff_exists, List.mem_map]
  constructor
  · intro hmem
    obtain ⟨⟨key, listener⟩, hentry, rfl⟩ := hmem
    exact ⟨listener, mem_live_iff.1 hentry⟩
  · intro hmem
    obtain ⟨listener, hlistener⟩ := hmem
    exact ⟨(id, listener), mem_live_iff.2 hlistener, rfl⟩

theorem pairwise_liveIds (s : Signal β) : s.liveIds.Pairwise (·.position < ·.position) :=
  s.connections.pairwise_entries

theorem nodup_liveIds (s : Signal β) : s.liveIds.Nodup := by
  refine s.pairwise_liveIds.imp ?_
  rintro id other hlt rfl
  exact Nat.lt_irrefl _ hlt

theorem run_append (s : Signal β) (first second : List (SignalCommand β)) :
    s.run (first ++ second) = (s.run first).run second :=
  List.foldl_append

theorem connectOrder_append (s : Signal β) (first second : List (SignalCommand β)) :
    s.connectOrder (first ++ second) =
      s.connectOrder first ++ (s.run first).connectOrder second := by
  induction first generalizing s with
  | nil => rfl
  | cons command commands ih =>
      cases command with
      | connect listener =>
          rw [List.cons_append, connectOrder, connectOrder, ih, List.cons_append]
          rfl
      | disconnect id =>
          rw [List.cons_append, connectOrder, connectOrder, ih]
          rfl

theorem mem_connectOrder_iff {commands : List (SignalCommand β)} :
    id ∈ s.connectOrder commands ↔
      ∃ before listener after, commands = before ++ .connect listener :: after ∧
        id = (s.run before).nextId := by
  constructor
  · intro h
    induction commands generalizing s with
    | nil => cases h
    | cons command commands ih =>
        cases command with
        | connect listener =>
            rcases List.mem_cons.1 h with rfl | h
            · exact ⟨[], listener, commands, rfl, rfl⟩
            · obtain ⟨before, other, after, rfl, hid⟩ := ih h
              exact ⟨.connect listener :: before, other, after, rfl, hid⟩
        | disconnect id =>
            obtain ⟨before, other, after, rfl, hid⟩ := ih h
            exact ⟨.disconnect id :: before, other, after, rfl, hid⟩
  · intro hmem
    obtain ⟨before, listener, after, rfl, rfl⟩ := hmem
    rw [connectOrder_append]
    exact List.mem_append_right _ List.mem_cons_self

theorem issued_step (command : SignalCommand β) (h : s.connections.Issued id) :
    (s.step command).connections.Issued id := by
  cases command with
  | connect listener => exact Arena.issued_insert.2 (.inl h)
  | disconnect other => exact Arena.issued_erase.2 h

theorem issued_run (commands : List (SignalCommand β)) (h : s.connections.Issued id) :
    (s.run commands).connections.Issued id := by
  induction commands generalizing s with
  | nil => exact h
  | cons command commands ih => exact ih (issued_step command h)

theorem retired_run (commands : List (SignalCommand β)) (h : s.connections.Retired id) :
    (s.run commands).connections.Retired id := by
  induction commands generalizing s with
  | nil => exact h
  | cons command commands ih =>
      apply ih
      cases command with
      | connect listener => exact h.insert
      | disconnect other => exact h.erase

theorem issued_connect_nextId (s : Signal β) (listener : β) :
    (s.connect listener).connections.Issued s.nextId :=
  Arena.issued_insert.2 (.inr rfl)

theorem issued_of_isLive (h : s.isLive id = true) : s.connections.Issued id := by
  obtain ⟨listener, hlistener⟩ := Option.isSome_iff_exists.1 h
  exact Arena.issued_of_get? hlistener

theorem isLive_of_isLive_run {commands : List (SignalCommand β)} (h : s.connections.Issued id)
    (hlive : (s.run commands).isLive id = true) : s.isLive id = true := by
  apply Classical.byContradiction
  intro hdead
  have hretired : s.connections.Retired id := ⟨h, by simpa [isLive] using hdead⟩
  have hgone := (retired_run commands hretired).2
  rw [isLive, hgone] at hlive
  cases hlive

theorem not_issued_of_mem_connectOrder {commands : List (SignalCommand β)}
    (h : id ∈ s.connectOrder commands) : ¬ s.connections.Issued id := by
  obtain ⟨before, listener, after, -, rfl⟩ := mem_connectOrder_iff.1 h
  intro hissued
  exact (s.run before).connections.not_issued_nextKey (issued_run before hissued)

theorem nodup_connectOrder (s : Signal β) (commands : List (SignalCommand β)) :
    (s.connectOrder commands).Nodup := by
  induction commands generalizing s with
  | nil => exact List.nodup_nil
  | cons command commands ih =>
      cases command with
      | connect listener =>
          refine List.nodup_cons.2 ⟨?_, ih _⟩
          intro hmem
          exact not_issued_of_mem_connectOrder hmem (s.issued_connect_nextId listener)
      | disconnect id => exact ih _

theorem mem_connectOrder_of_isLive {commands : List (SignalCommand β)}
    (h : (s.run commands).isLive id = true) :
    s.isLive id = true ∨ id ∈ s.connectOrder commands := by
  induction commands generalizing s with
  | nil => exact .inl h
  | cons command commands ih =>
      cases command with
      | connect listener =>
          rcases ih h with hlive | hmem
          · rw [step, isLive_connect, Bool.or_eq_true, beq_iff_eq] at hlive
            rcases hlive with rfl | hlive
            · exact .inr List.mem_cons_self
            · exact .inl hlive
          · exact .inr (List.mem_cons_of_mem _ hmem)
      | disconnect other =>
          rcases ih h with hlive | hmem
          · rw [step, isLive_disconnect, Bool.and_eq_true] at hlive
            exact .inl hlive.2
          · exact .inr hmem

/-- No live connection stands below one that was connected earlier: wherever one of them was
connected, all that were live then, and still are, stood at lower positions. -/
def StandsInOrder (commands : List (SignalCommand β)) : Prop :=
  ∀ before listener after, commands = before ++ .connect listener :: after →
    let id := ((∅ : Signal β).run before).nextId
    ((∅ : Signal β).run commands).isLive id = true →
      ∀ other, ((∅ : Signal β).run before).isLive other = true →
        ((∅ : Signal β).run commands).isLive other = true → other.position < id.position

theorem mem_connectOrder_empty {commands : List (SignalCommand β)}
    (h : ((∅ : Signal β).run commands).isLive id = true) :
    id ∈ (∅ : Signal β).connectOrder commands := by
  rcases mem_connectOrder_of_isLive h with hlive | hmem
  · cases hlive
  · exact hmem

theorem perm_liveIds (commands : List (SignalCommand β)) :
    ((∅ : Signal β).run commands).liveIds.Perm
      (((∅ : Signal β).connectOrder commands).filter ((∅ : Signal β).run commands).isLive) := by
  rw [List.perm_ext_iff_of_nodup (nodup_liveIds _) ((nodup_connectOrder _ _).filter _)]
  intro id
  rw [mem_liveIds_iff, List.mem_filter]
  exact ⟨fun hlive => ⟨mem_connectOrder_empty hlive, hlive⟩, And.right⟩

theorem sublist_connectOrder_iff (commands : List (SignalCommand β)) :
    ((∅ : Signal β).run commands).liveIds.Sublist ((∅ : Signal β).connectOrder commands) ↔
      (((∅ : Signal β).connectOrder commands).filter ((∅ : Signal β).run commands).isLive).Pairwise
        (·.position < ·.position) := by
  have hperm := perm_liveIds commands
  have hordered := pairwise_liveIds ((∅ : Signal β).run commands)
  constructor
  · intro hsublist
    have hkept := hsublist.filter ((∅ : Signal β).run commands).isLive
    rw [List.filter_eq_self.2 fun id hid => mem_liveIds_iff.1 hid] at hkept
    rw [← hkept.eq_of_length hperm.length_eq]
    exact hordered
  · intro hpairwise
    have hantisymm : ∀ id other : ConnectionId, id.position < other.position →
        other.position < id.position → id = other := by
      intro id other hlt hgt
      exact absurd hlt (Nat.lt_asymm hgt)
    rw [hperm.eq_of_pairwise (fun id other _ _ => hantisymm id other) hordered hpairwise]
    exact List.filter_sublist

theorem StandsInOrder.position_lt {commands made mid after : List (SignalCommand β)}
    {listener other : β} (h : StandsInOrder commands)
    (hsplit : commands = made ++ .connect listener :: (mid ++ .connect other :: after))
    (hfirst : ((∅ : Signal β).run commands).isLive ((∅ : Signal β).run made).nextId = true)
    (hsecond : ((∅ : Signal β).run commands).isLive
      ((((∅ : Signal β).run made).connect listener).run mid).nextId = true) :
    ((∅ : Signal β).run made).nextId.position <
      ((((∅ : Signal β).run made).connect listener).run mid).nextId.position := by
  have hbetween : (∅ : Signal β).run (made ++ .connect listener :: mid) =
      (((∅ : Signal β).run made).connect listener).run mid := run_append _ _ _
  have hsplit' : commands = (made ++ .connect listener :: mid) ++ .connect other :: after := by
    rw [hsplit, List.append_assoc, List.cons_append]
  have hlast : (∅ : Signal β).run commands =
      ((((∅ : Signal β).run made).connect listener).run mid).run (.connect other :: after) := by
    rw [← hbetween, ← run_append, ← hsplit']
  have hissued := issued_run mid (((∅ : Signal β).run made).issued_connect_nextId listener)
  have hthen := isLive_of_isLive_run hissued (hlast ▸ hfirst)
  rw [← hbetween] at hthen hsecond ⊢
  exact h _ other after hsplit' hsecond _ hthen hfirst

theorem pairwise_connectOrder_iff (commands : List (SignalCommand β)) :
    (((∅ : Signal β).connectOrder commands).filter ((∅ : Signal β).run commands).isLive).Pairwise
      (·.position < ·.position) ↔ StandsInOrder commands := by
  constructor
  · intro hpairwise before listener after hsplit id hid other hbefore hother
    rw [congrArg (connectOrder ∅) hsplit, connectOrder_append, List.filter_append,
      List.pairwise_append] at hpairwise
    have hfirst : other ∈ ((∅ : Signal β).connectOrder before).filter
        ((∅ : Signal β).run commands).isLive :=
      List.mem_filter.2 ⟨mem_connectOrder_empty hbefore, hother⟩
    exact hpairwise.2.2 other hfirst id (List.mem_filter.2 ⟨List.mem_cons_self, hid⟩)
  · intro h
    -- By induction on the calls that are left after some that were made.
    suffices hrest : ∀ rest made, commands = made ++ rest →
        ((((∅ : Signal β).run made).connectOrder rest).filter
          ((∅ : Signal β).run commands).isLive).Pairwise (·.position < ·.position) from
      hrest commands [] rfl
    intro rest
    induction rest with
    | nil => exact fun _ _ => .nil
    | cons command rest ih =>
        intro made hsplit
        have hrest := ih (made ++ [command]) (by rw [hsplit, List.append_assoc]; rfl)
        rw [run_append] at hrest
        cases command with
        | disconnect id => exact hrest
        | connect listener =>
            rw [connectOrder, List.filter_cons]
            split
            · rename_i hid
              refine List.pairwise_cons.2 ⟨?_, hrest⟩
              intro other hother
              obtain ⟨hother, hlive⟩ := List.mem_filter.1 hother
              obtain ⟨mid, listener', after, rfl, rfl⟩ := mem_connectOrder_iff.1 hother
              exact h.position_lt hsplit hid hlive
            · exact hrest

theorem freed_run_of_connects {made : List (SignalCommand β)}
    (hmade : ∀ id, .disconnect id ∉ made) (hfreed : s.connections.freed = []) :
    (s.run made).connections.freed = [] := by
  induction made generalizing s with
  | nil => exact hfreed
  | cons command made ih =>
      have hrest : ∀ id, .disconnect id ∉ made :=
        fun id hmem => hmade id (List.mem_cons_of_mem _ hmem)
      cases command with
      | connect listener => exact ih hrest (Arena.freed_insert hfreed listener)
      | disconnect id => exact absurd List.mem_cons_self (hmade id)

theorem standsInOrder_of_connects_first {commands : List (SignalCommand β)}
    (h : ∀ before id after, commands = before ++ .disconnect id :: after →
      ∀ listener, .connect listener ∉ after) : StandsInOrder commands := by
  intro before listener after hsplit id _ other hlive _
  refine Arena.position_lt_nextKey (freed_run_of_connects ?_ rfl) hlive
  intro gone hmem
  obtain ⟨first, second, rfl⟩ := List.append_of_mem hmem
  have hsplit' : commands =
      first ++ .disconnect gone :: (second ++ .connect listener :: after) := by
    rw [hsplit, List.append_assoc, List.cons_append]
  exact h first gone _ hsplit' listener (List.mem_append_right _ List.mem_cons_self)

end Signal

namespace Stage

variable {σ β α : Type}

theorem map_fst_callAll {call : β → Stage σ β → Option (List (Deed β α) × Stage σ β)}
    {connections : List (ConnectionId × β)} {stage after : Stage σ β} {calls : Calls β α}
    (h : callAll call connections stage = some (calls, after)) :
    calls.map (·.1) = connections.map (·.1) := by
  induction connections generalizing stage calls with
  | nil =>
      cases h
      rfl
  | cons connection rest ih =>
      obtain ⟨id, listener⟩ := connection
      simp only [callAll, Option.bind_eq_bind, Option.bind_eq_some_iff] at h
      obtain ⟨⟨deeds, between⟩, -, ⟨others, last⟩, hothers, heq⟩ := h
      cases heq
      rw [List.map_cons, List.map_cons, ih hothers]

theorem map_fst_emit {react : β → α → Reaction σ β α} {depth : Nat} {stage after : Stage σ β}
    {argument : α} {calls : Calls β α} (h : emit react depth stage argument = some (calls, after)) :
    calls.map (·.1) = stage.signal.liveIds := by
  cases depth with
  | zero => cases h
  | succ depth => exact map_fst_callAll h

end Stage

open Signal

/-- After any calls of connect and disconnect, an emission calls the live connections by position,
and this is the order of the connect calls exactly when the connections stand in order. -/
theorem emission_order {σ β α : Type} (commands : List (SignalCommand β)) :
    (∀ (react : β → α → Reaction σ β α) depth shared argument calls after,
      Stage.emit react depth { signal := (∅ : Signal β).run commands, shared } argument =
        some (calls, after) → calls.map (·.1) = ((∅ : Signal β).run commands).liveIds) ∧
    ((∅ : Signal β).run commands).liveIds.Pairwise (·.position < ·.position) ∧
    (((∅ : Signal β).run commands).liveIds.Sublist ((∅ : Signal β).connectOrder commands) ↔
      StandsInOrder commands) := by
  refine ⟨?_, pairwise_liveIds _, ?_⟩
  · intro react depth shared argument calls after hemit
    exact Stage.map_fst_emit hemit
  · rw [sublist_connectOrder_iff, pairwise_connectOrder_iff]

/-- A connection that takes the position of an earlier one is called before one that was connected
before it. -/
theorem not_in_connection_order :
    ¬ ∀ (commands : List (SignalCommand String)) calls after,
      Stage.emit (fun _ _ => Reaction.done) 1
        { signal := (∅ : Signal String).run commands, shared := () } "x" = some (calls, after) →
      (calls.map (·.1)).Sublist ((∅ : Signal String).connectOrder commands) := by
  intro h
  have hcalled := h [.connect "a", .connect "b", .disconnect { position := 0, generation := 1 },
    .connect "c"] _ _ rfl
  revert hcalled
  decide

end DashboardFilters
