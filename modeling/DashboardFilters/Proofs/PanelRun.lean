import DashboardFilters.Proofs.PassSlots

namespace DashboardFilters

variable {γ : Type}

/-! Runs of a panel. Between passes the host reports measurements, uses controls, and connects and
disconnects listeners; each pass may split the native filters in a way of its own. -/

inductive PanelCommand (γ : Type) where
  | render (resolve : ScopeResolver) (input : PanelInput)
  | report (measurement : Measurement)
  | edit (key : SlotKey) (change : γ → γ)
  | listen (listener : OverflowListener)
  | unlisten (id : ConnectionId)

namespace Panel

variable [Control γ]

def start (settings : Settings) : Panel γ := { settings }

def step (panel : Panel γ) : PanelCommand γ → Panel γ
  | .render resolve input => (panel.renderWith resolve input).panel
  | .report measurement => panel.report measurement
  | .edit key change => panel.edit key change
  | .listen listener => panel.listen listener
  | .unlisten id => panel.unlisten id

def records (panel : Panel γ) : PanelCommand γ → List (PanelRecord γ)
  | .render resolve input => (panel.renderWith resolve input).events.map .told
  | .edit key change => [.edited key change]
  | .report _ | .listen _ | .unlisten _ => []

def run (panel : Panel γ) (commands : List (PanelCommand γ)) : Panel γ :=
  commands.foldl step panel

def log (panel : Panel γ) : List (PanelCommand γ) → List (PanelRecord γ)
  | [] => []
  | command :: commands => panel.records command ++ (panel.step command).log commands

@[simp] theorem run_nil (panel : Panel γ) : panel.run [] = panel := rfl

@[simp] theorem run_cons (panel : Panel γ) (command : PanelCommand γ)
    (commands : List (PanelCommand γ)) :
    panel.run (command :: commands) = (panel.step command).run commands := rfl

theorem run_append (panel : Panel γ) (first second : List (PanelCommand γ)) :
    panel.run (first ++ second) = (panel.run first).run second :=
  List.foldl_append

end Panel

/-- A pass keeps the filters that it contains; everything else keeps all. -/
def PanelCommand.Keeps (id : FilterId) : PanelCommand γ → Prop
  | .render resolve input => input.Contains resolve id
  | _ => True

instance (id : FilterId) (command : PanelCommand γ) : Decidable (command.Keeps id) :=
  match command with
  | .render resolve input => inferInstanceAs (Decidable (input.Contains resolve id))
  | .report _ | .edit _ _ | .listen _ | .unlisten _ => isTrue trivial

open PanelRecord

namespace Panel

variable [Control γ] {panel : Panel γ} {id : FilterId} {key : SlotKey}

theorem mem_present_lineup_iff {input : PanelInput} {resolve : ScopeResolver} {id : FilterId} :
    id ∈ (input.lineup resolve).present.map (·.id) ↔ input.Contains resolve id :=
  Lineup.mem_present_iff

theorem indexed_step (h : panel.slots.Indexed) (command : PanelCommand γ) :
    (panel.step command).slots.Indexed := by
  cases command with
  | render resolve input =>
      exact (touched_renderWith h resolve input).indexed (allocated_spec h resolve input).indexed
  | edit key change => exact (touched_modifyControl panel.slots key change).indexed h
  | report | listen | unlisten => exact h

theorem issued_step (h : panel.slots.Indexed) (command : PanelCommand γ)
    (hissued : panel.slots.slots.Issued key) : (panel.step command).slots.slots.Issued key := by
  cases command with
  | render resolve input =>
      have hallocated := (allocated_spec h resolve input).issued hissued
      exact (touched_renderWith h resolve input).issued.2 hallocated
  | edit key change => exact (touched_modifyControl panel.slots key change).issued.2 hissued
  | report | listen | unlisten => exact hissued

theorem retired_step (h : panel.slots.Indexed) (command : PanelCommand γ)
    (hretired : panel.slots.slots.Retired key) : (panel.step command).slots.slots.Retired key := by
  cases command with
  | render resolve input =>
      have hallocated := (allocated_spec h resolve input).retired hretired
      exact (touched_renderWith h resolve input).retired hallocated
  | edit key change => exact (touched_modifyControl panel.slots key change).retired hretired
  | report | listen | unlisten => exact hretired

theorem slot_step_of_keeps (h : panel.slots.Indexed) {command : PanelCommand γ} {slot : Slot γ}
    (hkeeps : command.Keeps id) (hkey : panel.slots.keyOf id = some key)
    (hslot : panel.slots.get? key = some slot) :
    (panel.step command).slots.keyOf id = some key ∧
      (panel.records command).countP (creates id) = 0 ∧
        ∃ item, (panel.step command).slots.get? key =
          some ({ slot with item }.after id key (panel.records command)) := by
  cases command with
  | render resolve input =>
      have hmem := mem_present_lineup_iff.2 hkeeps
      obtain ⟨item, -, hkey', hslot'⟩ := (allocated_spec h resolve input).retained hmem hkey hslot
      have htouched := touched_renderWith h resolve input
      refine ⟨(htouched.keyOf id).trans hkey', ?_, item, htouched.slot hkey' hslot'⟩
      rw [records, countP_creates_renderWith, List.count_eq_zero, SlotTable.mem_created_iff, hkey]
      simp
  | edit other change =>
      have htouched := touched_modifyControl panel.slots other change
      exact ⟨hkey, by simp [records, creates], slot.item, htouched.slot hkey hslot⟩
  | report | listen | unlisten => exact ⟨hkey, rfl, slot.item, hslot⟩

theorem slot_step_of_new (h : panel.slots.Indexed) {resolve : ScopeResolver} {input : PanelInput}
    (hcontains : input.Contains resolve id) (hnew : panel.slots.keyOf id = none) :
    ∃ key serial item, item.id = id ∧ ¬ panel.slots.slots.Issued key ∧
      (panel.step (.render resolve input)).slots.keyOf id = some key ∧
      (panel.records (.render resolve input)).countP (creates id) = 1 ∧
        (panel.step (.render resolve input)).slots.get? key =
          some (Slot.after { item, control := Control.create serial item } id key
            (panel.records (.render resolve input))) := by
  have hmem := mem_present_lineup_iff.2 hcontains
  obtain ⟨key, serial, item, hitem, hfresh, hkey, hslot⟩ :=
    (allocated_spec h resolve input).opened hmem hnew
  have hid : item.id = id := by simpa using List.find?_some hitem
  have htouched := touched_renderWith h resolve input
  refine ⟨key, serial, item, hid, hfresh, (htouched.keyOf id).trans hkey, ?_,
    htouched.slot hkey hslot⟩
  have hcreated := SlotTable.mem_created_iff.2 ⟨hmem, hnew⟩
  rw [records, countP_creates_renderWith, (SlotTable.nodup_created _ _).count, if_pos hcreated]

theorem slot_step_of_absent (h : panel.slots.Indexed) {resolve : ScopeResolver}
    {input : PanelInput} (habsent : ¬ input.Contains resolve id) :
    (panel.step (.render resolve input)).slots.keyOf id = none ∧
      ∀ key, panel.slots.keyOf id = some key →
        (panel.step (.render resolve input)).slots.slots.Retired key := by
  have hmem : id ∉ (input.lineup resolve).present.map (·.id) :=
    fun hmem => habsent (mem_present_lineup_iff.1 hmem)
  have hallocated := allocated_spec h resolve input
  have htouched := touched_renderWith h resolve input
  refine ⟨(htouched.keyOf id).trans (hallocated.absent hmem), ?_⟩
  intro key hkey
  exact htouched.retired (hallocated.released hmem hkey)

theorem indexed_run (h : panel.slots.Indexed) (commands : List (PanelCommand γ)) :
    (panel.run commands).slots.Indexed := by
  induction commands generalizing panel with
  | nil => exact h
  | cons command commands ih => exact ih (indexed_step h command)

theorem settings_run (panel : Panel γ) (commands : List (PanelCommand γ)) :
    (panel.run commands).settings = panel.settings := by
  induction commands generalizing panel with
  | nil => rfl
  | cons command commands ih =>
      rw [run_cons, ih]
      cases command <;> rfl

theorem issued_run (h : panel.slots.Indexed) (commands : List (PanelCommand γ))
    (hissued : panel.slots.slots.Issued key) :
    (panel.run commands).slots.slots.Issued key := by
  induction commands generalizing panel with
  | nil => exact hissued
  | cons command commands ih => exact ih (indexed_step h command) (issued_step h command hissued)

theorem retired_run (h : panel.slots.Indexed) (commands : List (PanelCommand γ))
    (hretired : panel.slots.slots.Retired key) :
    (panel.run commands).slots.slots.Retired key := by
  induction commands generalizing panel with
  | nil => exact hretired
  | cons command commands ih => exact ih (indexed_step h command) (retired_step h command hretired)

theorem slot_run_of_keeps (h : panel.slots.Indexed) {commands : List (PanelCommand γ)}
    {slot : Slot γ} (hkeeps : ∀ command ∈ commands, command.Keeps id)
    (hkey : panel.slots.keyOf id = some key) (hslot : panel.slots.get? key = some slot) :
    (panel.run commands).slots.keyOf id = some key ∧
      (panel.log commands).countP (creates id) = 0 ∧
        ∃ item, (panel.run commands).slots.get? key =
          some ({ slot with item }.after id key (panel.log commands)) := by
  induction commands generalizing panel slot with
  | nil => exact ⟨hkey, rfl, slot.item, hslot⟩
  | cons command commands ih =>
      obtain ⟨hkey', hcount, item, hslot'⟩ :=
        slot_step_of_keeps h (hkeeps command List.mem_cons_self) hkey hslot
      obtain ⟨hkey'', hcount', item', hslot''⟩ :=
        ih (indexed_step h command)
          (fun other hother => hkeeps other (List.mem_cons_of_mem _ hother)) hkey' hslot'
      refine ⟨hkey'', ?_, item', ?_⟩
      · rw [log, List.countP_append, hcount, hcount']
      · rw [run_cons, hslot'', log, Slot.after_append]
        rfl

end Panel

def PanelCommand.presentAfter (id : FilterId) (present : Prop) : PanelCommand γ → Prop
  | .render resolve input => input.Contains resolve id
  | _ => present

def PresentAfter (id : FilterId) (present : Prop) (commands : List (PanelCommand γ)) : Prop :=
  commands.foldl (fun present command => command.presentAfter id present) present

def LatestContains (id : FilterId) (commands : List (PanelCommand γ)) : Prop :=
  PresentAfter id False commands

namespace Panel

variable [Control γ] {panel : Panel γ} {id : FilterId} {key : SlotKey}

theorem isSome_keyOf_step_iff (h : panel.slots.Indexed) (command : PanelCommand γ) :
    ((panel.step command).slots.keyOf id).isSome ↔
      command.presentAfter id (panel.slots.keyOf id).isSome := by
  cases command with
  | render resolve input =>
      show _ ↔ input.Contains resolve id
      constructor
      · intro hsome
        apply Classical.byContradiction
        intro habsent
        rw [(slot_step_of_absent h habsent).1] at hsome
        cases hsome
      · intro hcontains
        cases hkey : panel.slots.keyOf id with
        | none =>
            obtain ⟨key, _, _, _, _, hkey', _⟩ := slot_step_of_new h hcontains hkey
            rw [hkey']
            rfl
        | some key =>
            obtain ⟨slot, hslot, -⟩ := h.resolves hkey
            have hkeeps : (PanelCommand.render (γ := γ) resolve input).Keeps id := hcontains
            rw [(slot_step_of_keeps h hkeeps hkey hslot).1]
            rfl
  | edit other change => exact .rfl
  | report | listen | unlisten => exact .rfl

theorem isSome_keyOf_run_iff (h : panel.slots.Indexed) (commands : List (PanelCommand γ)) :
    ((panel.run commands).slots.keyOf id).isSome ↔
      PresentAfter id (panel.slots.keyOf id).isSome commands := by
  induction commands generalizing panel with
  | nil => exact .rfl
  | cons command commands ih =>
      rw [run_cons, ih (indexed_step h command), isSome_keyOf_step_iff h]
      exact .rfl

theorem isSome_keyOf_iff (settings : Settings) (commands : List (PanelCommand γ)) :
    (((start settings).run commands).slots.keyOf id).isSome ↔ LatestContains id commands := by
  rw [isSome_keyOf_run_iff SlotTable.indexed_empty]
  rw [LatestContains, show ((start (γ := γ) settings).slots.keyOf id).isSome = false from rfl]
  simp

end Panel

end DashboardFilters
