import DashboardFilters.Proofs.ViewContents

/-!
Selections that the host reports. A panel passes on those of the filters in the latest pass, out of
scope or not, and refuses all others; either way a report changes nothing of the panel.
-/

namespace DashboardFilters

variable {γ : Type}

structure Notified (γ : Type) where
  panel : Panel γ
  answer : Except UnknownFilter Unit
  events : List PanelEvent

def Panel.notify (panel : Panel γ) (id : FilterId) (value : Json) : Notified γ :=
  match panel.select id value with
  | .ok event => { panel, answer := .ok (), events := [event] }
  | .error error => { panel, answer := .error error, events := [] }

namespace Panel

variable {panel : Panel γ} {id : FilterId} {key : SlotKey}

theorem panel_notify (panel : Panel γ) (id : FilterId) (value : Json) :
    (panel.notify id value).panel = panel := by
  unfold notify
  split <;> rfl

theorem notify_of_keyed (h : panel.slots.keyOf id = some key) (value : Json) :
    panel.notify id value = { panel, answer := .ok (), events := [.selected id value] } := by
  simp only [notify, select, h]

theorem notify_of_unkeyed (h : panel.slots.keyOf id = none) (value : Json) :
    panel.notify id value = { panel, answer := .error { id }, events := [] } := by
  simp only [notify, select, h]

theorem answer_notify_iff (value : Json) :
    (panel.notify id value).answer = .ok () ↔ (panel.slots.keyOf id).isSome := by
  cases hkey : panel.slots.keyOf id with
  | none =>
      rw [notify_of_unkeyed hkey]
      refine iff_of_false ?_ Bool.false_ne_true
      intro hanswer
      cases hanswer
  | some key =>
      rw [notify_of_keyed hkey]
      exact iff_of_true rfl rfl

end Panel

inductive HostAction (γ : Type) where
  | perform (command : PanelCommand γ)
  | select (id : FilterId) (value : Json)

def HostAction.command? : HostAction γ → Option (PanelCommand γ)
  | perform command => some command
  | select _ _ => none

namespace Panel

variable [Control γ]

def serve (panel : Panel γ) : HostAction γ → Panel γ
  | .perform command => panel.step command
  | .select id value => (panel.notify id value).panel

def serveAll (panel : Panel γ) (history : List (HostAction γ)) : Panel γ :=
  history.foldl serve panel

theorem serveAll_eq_run (panel : Panel γ) (history : List (HostAction γ)) :
    panel.serveAll history = panel.run (history.filterMap HostAction.command?) := by
  induction history generalizing panel with
  | nil => rfl
  | cons action history ih =>
      cases action with
      | perform command => exact ih (panel.step command)
      | select id value =>
          have hserve : panel.serve (.select id value) = panel := panel_notify panel id value
          show (panel.serve (.select id value)).serveAll history = _
          rw [hserve]
          exact ih panel

end Panel

def PanelCommand.pass? : PanelCommand γ → Option (ScopeResolver × PanelInput)
  | .render resolve input => some (resolve, input)
  | _ => none

def latestPass (commands : List (PanelCommand γ)) : Option (ScopeResolver × PanelInput) :=
  (commands.filterMap PanelCommand.pass?).getLast?

theorem presentAfter_iff {id : FilterId} {present : Prop} {commands : List (PanelCommand γ)} :
    PresentAfter id present commands ↔
      match latestPass commands with
      | some (resolve, input) => input.Contains resolve id
      | none => present := by
  induction commands generalizing present with
  | nil => exact .rfl
  | cons command commands ih =>
      have hstep : PresentAfter id present (command :: commands) =
          PresentAfter id (command.presentAfter id present) commands := rfl
      rw [hstep, ih]
      cases command with
      | render resolve input =>
          have hlatest : latestPass (.render resolve input :: commands) =
              some ((latestPass commands).getD (resolve, input)) :=
            List.getLast?_cons
          rw [hlatest]
          cases latestPass commands <;> exact .rfl
      | report | edit | listen | unlisten => exact .rfl

theorem latestContains_iff {id : FilterId} {commands : List (PanelCommand γ)} :
    LatestContains id commands ↔ ∃ resolve input,
      latestPass commands = some (resolve, input) ∧ input.Contains resolve id := by
  rw [LatestContains, presentAfter_iff]
  cases latestPass commands with
  | none => simp
  | some pass =>
      obtain ⟨resolve, input⟩ := pass
      constructor
      · exact fun hcontains => ⟨resolve, input, rfl, hcontains⟩
      · rintro ⟨_, _, heq, hcontains⟩
        cases heq
        exact hcontains

structure Notified.Answers (notified : Notified γ) (panel : Panel γ)
    (pass : Option (ScopeResolver × PanelInput)) (id : FilterId) (value : Json) : Prop where
  accepted_iff : notified.answer = .ok () ↔
    ∃ resolve input, pass = some (resolve, input) ∧ input.Contains resolve id
  /-- All that is configured counts, as long as the scope is decided without losing a filter. -/
  kept : ∀ resolve input, pass = some (resolve, input) →
    (∀ other, other ∈ (input.split resolve).items.map (·.id) ↔ other ∈ input.nativeIds) →
      (notified.answer = .ok () ↔ id ∈ input.nativeIds ∨ id ∈ input.crossIds)
  configured : ∀ input, pass = some (Tabs.split, input) →
    (notified.answer = .ok () ↔ id ∈ input.nativeIds ∨ id ∈ input.crossIds)
  accepted : notified.answer = .ok () → notified.events = [.selected id value]
  refused : notified.answer ≠ .ok () → notified.answer = .error { id } ∧ notified.events = []
  unchanged : notified.panel = panel

theorem Panel.answers_notify {panel : Panel γ} {commands : List (PanelCommand γ)} {id : FilterId}
    (h : (panel.slots.keyOf id).isSome ↔ LatestContains id commands) (value : Json) :
    (panel.notify id value).Answers panel (latestPass commands) id value := by
  have haccepted : (panel.notify id value).answer = .ok () ↔ ∃ resolve input,
      latestPass commands = some (resolve, input) ∧ input.Contains resolve id := by
    rw [answer_notify_iff, h, latestContains_iff]
  have hkept : ∀ resolve input, latestPass commands = some (resolve, input) →
      (∀ other, other ∈ (input.split resolve).items.map (·.id) ↔ other ∈ input.nativeIds) →
        ((panel.notify id value).answer = .ok () ↔ id ∈ input.nativeIds ∨ id ∈ input.crossIds) := by
    intro resolve input hpass hsplit
    rw [haccepted, hpass, ← hsplit]
    constructor
    · rintro ⟨_, _, heq, hcontains⟩
      cases heq
      exact hcontains
    · exact fun hcontains => ⟨_, _, rfl, hcontains⟩
  constructor
  case accepted_iff => exact haccepted
  case kept => exact hkept
  case configured =>
    exact fun input hpass => hkept Tabs.split input hpass fun _ => PanelInput.mem_items_split_iff
  case accepted =>
    intro hanswer
    rw [answer_notify_iff] at hanswer
    obtain ⟨key, hkey⟩ := Option.isSome_iff_exists.1 hanswer
    rw [notify_of_keyed hkey]
  case refused =>
    intro hanswer
    rw [ne_eq, answer_notify_iff, Option.not_isSome_iff_eq_none] at hanswer
    rw [notify_of_unkeyed hanswer]
    exact ⟨rfl, rfl⟩
  case unchanged => exact panel.panel_notify id value

/-- At any point of a history a report is passed on, once, exactly if the latest pass contained the
filter, and otherwise refused with its id. No report has an effect on what comes after it. -/
theorem selections_answered [Control γ] (settings : Settings) (history : List (HostAction γ))
    (id : FilterId) (value : Json) :
    let commands := history.filterMap HostAction.command?
    let panel := (Panel.start settings).serveAll history
    panel = (Panel.start settings).run commands ∧
      (panel.notify id value).Answers panel (latestPass commands) id value := by
  intro commands panel
  have hpanel : panel = (Panel.start settings).run commands := Panel.serveAll_eq_run _ history
  refine ⟨hpanel, Panel.answers_notify ?_ value⟩
  rw [hpanel]
  exact Panel.isSome_keyOf_iff settings commands

end DashboardFilters
