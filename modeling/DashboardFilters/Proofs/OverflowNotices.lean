import DashboardFilters.Proofs.OverflowHistory
import DashboardFilters.Proofs.PassSlots
import Mathlib.Data.List.Chain

/-!
The notices of an overflow. Only a switch or a commit can change the committed ids, and the
listeners are told exactly when one does. So whoever listens and keeps the last ids it was told
knows the committed ids at every point.
-/

namespace DashboardFilters

namespace Overflow

variable {overflow : Overflow}

def audience (overflow : Overflow) : List String :=
  overflow.listeners.live.map (·.2.tag)

/-- The notice of a change to the given ids, unless they are the committed ones already. -/
def announcement (overflow : Overflow) (next : List FilterId) : Option OverflowNotice :=
  if next = overflow.ids then none else some { ids := next, listeners := overflow.audience }

theorem announcement_of_eq {next : List FilterId} (h : next = overflow.ids) :
    overflow.announcement next = none :=
  if_pos h

theorem announcement_congr {other : Overflow} (hids : other.ids = overflow.ids)
    (hlisteners : other.listeners = overflow.listeners) (next : List FilterId) :
    other.announcement next = overflow.announcement next := by
  simp only [announcement, audience, hids, hlisteners]

theorem foldl_report (measurements : List Measurement) (overflow : Overflow) :
    measurements.foldl report overflow =
      { overflow with pending := measurements.getLast?.or overflow.pending } := by
  induction measurements generalizing overflow with
  | nil => rfl
  | cons measurement measurements ih =>
      rw [List.foldl_cons, ih, List.getLast?_cons]
      cases measurements.getLast? <;> rfl

@[simp] theorem mode_update (overflow : Overflow) (next : List FilterId) :
    (overflow.update next).1.mode = overflow.mode := by
  rw [update_eq, foldl_report]

@[simp] theorem ids_update (overflow : Overflow) (next : List FilterId) :
    (overflow.update next).1.ids = next := by
  rw [update_eq, foldl_report]
  rfl

@[simp] theorem listeners_update (overflow : Overflow) (next : List FilterId) :
    (overflow.update next).1.listeners = overflow.listeners := by
  rw [update_eq, foldl_report]

theorem notice_update (overflow : Overflow) (next : List FilterId) :
    (overflow.update next).2 = overflow.announcement next := by
  have hchanges : overflow.overflowed.changes next = true ↔ next ≠ overflow.ids := by
    rw [Property.changes, Bool.not_eq_true', beq_eq_false_iff_ne]
    exact ne_comm
  unfold update announcement audience
  split
  · rename_i hnext
    rw [if_neg (hchanges.1 hnext)]
    simp only [List.map_map, Function.comp_def]
  · rename_i hsame
    rw [if_pos (Classical.not_not.1 fun hnext => hsame (hchanges.2 hnext))]

structure Announces (overflow : Overflow) (outcome : Outcome) : Prop where
  listeners : outcome.overflow.listeners = overflow.listeners
  notice : outcome.notice = overflow.announcement outcome.overflow.ids

theorem announces_update (overflow staged : Overflow) (hids : staged.ids = overflow.ids)
    (hlisteners : staged.listeners = overflow.listeners) (next : List FilterId) (changed : Bool) :
    overflow.Announces
      { overflow := (staged.update next).1, changed, notice := (staged.update next).2 } where
  listeners := (listeners_update staged next).trans hlisteners
  notice := by
    rw [ids_update, notice_update]
    exact announcement_congr hids hlisteners next

theorem announces_idle {outcome : Outcome}
    (hlisteners : outcome.overflow.listeners = overflow.listeners)
    (hids : outcome.overflow.ids = overflow.ids) (hnotice : outcome.notice = none) :
    overflow.Announces outcome where
  listeners := hlisteners
  notice := by rw [hnotice, announcement_of_eq hids]

theorem setMode_same {mode : LayoutMode} (hmode : overflow.mode = mode) :
    overflow.setMode mode = { overflow, changed := false, notice := none } :=
  if_pos hmode

theorem setMode_horizontal (hmode : ¬ overflow.mode = .horizontal) :
    overflow.setMode .horizontal =
      { overflow := { overflow with mode := .horizontal }, changed := true, notice := none } :=
  if_neg hmode

theorem announces_setMode (overflow : Overflow) (mode : LayoutMode) :
    overflow.Announces (overflow.setMode mode) := by
  by_cases hsame : overflow.mode = mode
  · rw [setMode_same hsame]
    exact announces_idle rfl rfl rfl
  · cases mode with
    | horizontal =>
        rw [setMode_horizontal hsame]
        exact announces_idle rfl rfl rfl
    | vertical =>
        rw [setMode_vertical hsame]
        exact announces_update overflow { overflow with mode := .vertical, pending := none }
          rfl rfl [] true

theorem announces_commit (overflow : Overflow) (known : List FilterId) :
    overflow.Announces (overflow.commit known) := by
  cases hmode : overflow.mode with
  | vertical =>
      rw [commit_vertical hmode]
      exact announces_idle rfl rfl rfl
  | horizontal =>
      rw [commit_horizontal hmode]
      exact announces_update overflow { overflow with pending := none } rfl rfl _ _

theorem mode_setMode (overflow : Overflow) (mode : LayoutMode) :
    (overflow.setMode mode).overflow.mode = mode := by
  by_cases hsame : overflow.mode = mode
  · rw [setMode_same hsame, hsame]
  · cases mode with
    | horizontal => rw [setMode_horizontal hsame]
    | vertical =>
        rw [setMode_vertical hsame]
        exact mode_update _ _

theorem ids_setMode_horizontal (overflow : Overflow) :
    (overflow.setMode .horizontal).overflow.ids = overflow.ids := by
  by_cases hsame : overflow.mode = .horizontal
  · rw [setMode_same hsame]
  · rw [setMode_horizontal hsame]
    rfl

theorem candidate_setMode_horizontal (overflow : Overflow) :
    (overflow.setMode .horizontal).overflow.candidate = overflow.candidate := by
  by_cases hsame : overflow.mode = .horizontal
  · rw [setMode_same hsame]
  · rw [setMode_horizontal hsame]
    rfl

theorem ids_commit_vertical (hmode : overflow.mode = .vertical) (known : List FilterId) :
    (overflow.commit known).overflow.ids = overflow.ids := by
  rw [commit_vertical hmode]
  rfl

theorem ids_commit_horizontal (hmode : overflow.mode = .horizontal) (known : List FilterId) :
    (overflow.commit known).overflow.ids =
      distinctBy id (overflow.candidate.filter known.contains) := by
  rw [commit_horizontal hmode]
  exact ids_update _ _

theorem changed_commit (overflow : Overflow) (known : List FilterId) :
    (overflow.commit known).changed = (overflow.commit known).notice.isSome := by
  cases hmode : overflow.mode with
  | vertical =>
      rw [commit_vertical hmode]
      rfl
  | horizontal => rw [commit_horizontal hmode]

def notice (overflow : Overflow) : OverflowCommand → Option OverflowNotice
  | .setMode mode => (overflow.setMode mode).notice
  | .commit known => (overflow.commit known).notice
  | .report _ | .listen _ | .unlisten _ => none

def notices (overflow : Overflow) : List OverflowCommand → List OverflowNotice
  | [] => []
  | command :: commands =>
      (overflow.notice command).toList ++ (overflow.step command).notices commands

/-- The connection is there, and the notice names its listener. -/
def reaches (overflow : Overflow) (id : ConnectionId) (notice : OverflowNotice) : Bool :=
  (overflow.listeners.connections.get? id).any fun listener =>
    notice.listeners.contains listener.tag

/-- The ids that the listener of a connection is told, by the notices that name it. -/
def heard (overflow : Overflow) (id : ConnectionId) : List OverflowCommand → List (List FilterId)
  | [] => []
  | command :: commands =>
      ((overflow.notice command).toList.filter (overflow.reaches id)).map (·.ids)
        ++ (overflow.step command).heard id commands

theorem notice_eq (overflow : Overflow) (command : OverflowCommand) :
    overflow.notice command = overflow.announcement (overflow.step command).ids := by
  cases command with
  | setMode mode => exact (overflow.announces_setMode mode).notice
  | commit known => exact (overflow.announces_commit known).notice
  | report | listen | unlisten => exact (announcement_of_eq rfl).symm

theorem mem_audience {id : ConnectionId} {listener : OverflowListener}
    (hlistener : overflow.listeners.connections.get? id = some listener) :
    listener.tag ∈ overflow.audience :=
  List.mem_map_of_mem (f := (·.2.tag)) (Signal.mem_live_iff.2 hlistener)

/-- A notice names every listener that is connected. -/
theorem reaches_of_notice {id : ConnectionId} {command : OverflowCommand} {notice : OverflowNotice}
    (hlive : overflow.listeners.isLive id = true)
    (hnotice : overflow.notice command = some notice) : overflow.reaches id notice = true := by
  obtain ⟨listener, hlistener⟩ := Option.isSome_iff_exists.1 hlive
  rw [notice_eq, announcement] at hnotice
  split at hnotice
  · cases hnotice
  · cases hnotice
    rw [reaches, hlistener, Option.any_some, List.contains_iff_mem]
    exact mem_audience hlistener

theorem ids_run (overflow : Overflow) (commands : List OverflowCommand) :
    ((overflow.notices commands).map (·.ids)).getLastD overflow.ids =
      (overflow.run commands).ids := by
  induction commands generalizing overflow with
  | nil => rfl
  | cons command commands ih =>
      have hrest := ih (overflow.step command)
      rw [notices, notice_eq, announcement]
      split
      · rename_i hsame
        rw [hsame] at hrest
        exact hrest
      · rw [Option.toList_some, List.singleton_append, List.map_cons, List.getLastD_cons]
        exact hrest

theorem isChain_notices (overflow : Overflow) (commands : List OverflowCommand) :
    (overflow.ids :: (overflow.notices commands).map (·.ids)).IsChain (· ≠ ·) := by
  induction commands generalizing overflow with
  | nil => exact .singleton _
  | cons command commands ih =>
      have hrest := ih (overflow.step command)
      rw [notices, notice_eq, announcement]
      split
      · rename_i hsame
        rw [hsame] at hrest
        exact hrest
      · rename_i hchanged
        exact .cons_cons (Ne.symm hchanged) hrest

theorem isLive_step {id : ConnectionId} {command : OverflowCommand}
    (hlive : overflow.listeners.isLive id = true) (hcommand : command ≠ .unlisten id) :
    (overflow.step command).listeners.isLive id = true := by
  cases command with
  | setMode mode =>
      rw [step, (overflow.announces_setMode mode).listeners]
      exact hlive
  | commit known =>
      rw [step, (overflow.announces_commit known).listeners]
      exact hlive
  | report measurement => exact hlive
  | listen listener =>
      show (overflow.listeners.connect listener).isLive id = true
      rw [Signal.isLive_connect, hlive, Bool.or_true]
  | unlisten other =>
      have hne : id ≠ other := fun heq => hcommand (heq ▸ rfl)
      show (overflow.listeners.disconnect other).isLive id = true
      rw [Signal.isLive_disconnect, hlive, Bool.and_true]
      simpa using hne

theorem heard_eq {id : ConnectionId} {commands : List OverflowCommand}
    (hlive : overflow.listeners.isLive id = true) (hstays : .unlisten id ∉ commands) :
    overflow.heard id commands = (overflow.notices commands).map (·.ids) := by
  induction commands generalizing overflow with
  | nil => rfl
  | cons command commands ih =>
      rw [List.mem_cons, not_or] at hstays
      have hreached : (overflow.notice command).toList.filter (overflow.reaches id) =
          (overflow.notice command).toList := by
        apply List.filter_eq_self.2
        exact fun notice hnotice => reaches_of_notice hlive (Option.mem_toList.1 hnotice)
      rw [heard, notices, hreached, List.map_append,
        ih (isLive_step hlive (Ne.symm hstays.1)) hstays.2]

theorem ids_of_heard (overflow : Overflow) (observer : OverflowListener)
    {commands : List OverflowCommand} (hstays : .unlisten overflow.listeners.nextId ∉ commands) :
    ((overflow.listen observer).heard overflow.listeners.nextId commands).getLastD overflow.ids =
      ((overflow.listen observer).run commands).ids := by
  have hlive : (overflow.listen observer).listeners.isLive overflow.listeners.nextId = true := by
    show (overflow.listeners.connect observer).isLive overflow.listeners.nextId = true
    rw [Signal.isLive_connect, beq_self_eq_true, Bool.true_or]
  rw [heard_eq hlive hstays]
  exact ids_run _ _

/-! A switch and a commit, as in a pass, make at most one change: after a switch to the vertical list
there is nothing to commit, and a switch to the row changes no ids. -/

theorem notices_switch_commit (overflow : Overflow) (mode : LayoutMode) (known : List FilterId) :
    (overflow.setMode mode).notice.toList ++
        ((overflow.setMode mode).overflow.commit known).notice.toList =
      (overflow.announcement
        ((overflow.setMode mode).overflow.commit known).overflow.ids).toList := by
  have hswitch := overflow.announces_setMode mode
  have hcommit := (overflow.setMode mode).overflow.announces_commit known
  rw [hswitch.notice, hcommit.notice]
  cases mode with
  | vertical =>
      have hids := ids_commit_vertical (overflow.mode_setMode .vertical) known
      rw [announcement_of_eq hids, hids, Option.toList_none, List.append_nil]
  | horizontal =>
      have hids := overflow.ids_setMode_horizontal
      rw [announcement_of_eq hids, announcement_congr hids hswitch.listeners, Option.toList_none,
        List.nil_append]

end Overflow

def PanelEvent.notice? : PanelEvent → Option OverflowNotice
  | .overflowChanged notice => some notice
  | _ => none

namespace Panel

variable {γ : Type} (panel : Panel γ) (resolve : ScopeResolver) (input : PanelInput)

theorem ids_overflowIn_horizontal (hmode : input.mode = .horizontal) :
    (panel.overflowIn resolve input).ids = distinctBy id
      (panel.overflow.candidate.filter ((input.lineup resolve).row.map (·.id)).contains) := by
  have hswitched : (panel.overflow.setMode .horizontal).overflow.mode = .horizontal :=
    Overflow.mode_setMode _ _
  rw [overflowIn, hmode, Overflow.ids_commit_horizontal hswitched,
    Overflow.candidate_setMode_horizontal]

theorem nodup_ids_overflowIn (hmode : input.mode = .horizontal) :
    (panel.overflowIn resolve input).ids.Nodup := by
  have hnodup := nodup_map_distinctBy id
    (panel.overflow.candidate.filter ((input.lineup resolve).row.map (·.id)).contains)
  rw [List.map_id] at hnodup
  rw [panel.ids_overflowIn_horizontal resolve input hmode]
  exact hnodup

theorem mem_row_of_mem_overflowIn (hmode : input.mode = .horizontal) {id : FilterId}
    (hid : id ∈ (panel.overflowIn resolve input).ids) :
    id ∈ (input.lineup resolve).row.map (·.id) := by
  rw [panel.ids_overflowIn_horizontal resolve input hmode] at hid
  have hknown := (List.mem_filter.1 ((distinctBy_sublist _ _).subset hid)).2
  exact List.contains_iff_mem.1 hknown

theorem notice?_renderWith [Control γ] :
    (panel.renderWith resolve input).events.filterMap PanelEvent.notice? =
      (panel.overflow.announcement (panel.renderWith resolve input).panel.overflow.ids).toList := by
  have hgroup : ∀ event : PanelEvent, event.group ≠ .announcement → event.notice? = none := by
    intro event hother
    cases event with
    | overflowChanged => exact absurd rfl hother
    | created | placed | cleared | clearCompleted | openRequested | selected => rfl
  have hnotices := panel.overflow.notices_switch_commit input.mode
    ((input.lineup resolve).row.map (·.id))
  rw [panel.filterMap_renderWith resolve input hgroup]
  refine Eq.trans ?_ hnotices
  simp [eventsOf, announcements, PanelEvent.notice?, List.filterMap_map, Function.comp_def]

end Panel

/-- The listeners that were there before are told once, of the ids after, if these are others. -/
structure Overflow.ToldOnce (before after : Overflow) (notices : List OverflowNotice) : Prop where
  once : notices.length ≤ 1
  told_iff : notices ≠ [] ↔ after.ids ≠ before.ids
  told : ∀ notice ∈ notices, notice.ids = after.ids ∧ notice.listeners = before.audience

theorem Overflow.toldOnce_announcement (before after : Overflow) :
    before.ToldOnce after (before.announcement after.ids).toList := by
  by_cases hids : after.ids = before.ids
  · rw [announcement_of_eq hids]
    exact ⟨Nat.zero_le 1, by simp [hids], fun _ hnotice => absurd hnotice List.not_mem_nil⟩
  · rw [announcement, if_neg hids, Option.toList_some]
    refine ⟨Nat.le_refl 1, by simp [hids], ?_⟩
    intro notice hnotice
    rw [List.mem_singleton.1 hnotice]
    exact ⟨rfl, rfl⟩

open Overflow in
/-- Every switch and every commit tells the listeners of the ids exactly as it changes them, and so
does every pass. -/
theorem notices_track_ids {γ : Type} [Control γ] :
    (∀ (overflow : Overflow) (mode : LayoutMode),
      overflow.ToldOnce (overflow.setMode mode).overflow (overflow.setMode mode).notice.toList) ∧
    (∀ (overflow : Overflow) (known : List FilterId),
      overflow.ToldOnce (overflow.commit known).overflow (overflow.commit known).notice.toList ∧
      (overflow.commit known).changed = (overflow.commit known).notice.isSome) ∧
    (∀ (overflow : Overflow) (commands : List OverflowCommand),
      (overflow.ids :: (overflow.notices commands).map (·.ids)).IsChain (· ≠ ·)) ∧
    (∀ (overflow : Overflow) (observer : OverflowListener) (commands : List OverflowCommand),
      .unlisten overflow.listeners.nextId ∉ commands →
      ((overflow.listen observer).heard overflow.listeners.nextId commands).getLastD overflow.ids =
        ((overflow.listen observer).run commands).ids) ∧
    (∀ (panel : Panel γ) (resolve : ScopeResolver) (input : PanelInput),
      let rendered := panel.renderWith resolve input
      panel.overflow.ToldOnce rendered.panel.overflow
        (rendered.events.filterMap PanelEvent.notice?)) := by
  refine ⟨?_, ?_, ?_, ?_, ?_⟩
  · intro overflow mode
    rw [(overflow.announces_setMode mode).notice]
    exact overflow.toldOnce_announcement _
  · intro overflow known
    refine ⟨?_, overflow.changed_commit known⟩
    rw [(overflow.announces_commit known).notice]
    exact overflow.toldOnce_announcement _
  · exact isChain_notices
  · exact fun overflow observer _ hstays => ids_of_heard overflow observer hstays
  · intro panel resolve input rendered
    rw [panel.notice?_renderWith resolve input]
    exact panel.overflow.toldOnce_announcement _

end DashboardFilters
