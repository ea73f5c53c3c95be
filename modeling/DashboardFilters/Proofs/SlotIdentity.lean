import DashboardFilters.Proofs.PanelRun
import DashboardFilters.Slots.Recorder

/-!
The identity of slots over whole runs. As long as consecutive passes contain a filter, wherever they
show it, its key and its control stay; a pass without it ends the key for good.
-/

namespace DashboardFilters

open PanelRecord

variable {γ : Type} [Control γ]

namespace Panel

def HasIssued (origin : Panel γ) (commands : List (PanelCommand γ)) (key : SlotKey) : Prop :=
  ∃ earlier, earlier <+: commands ∧ ∃ id, (origin.run earlier).slots.keyOf id = some key

theorem HasIssued.issued {origin : Panel γ} (h : origin.slots.Indexed)
    {commands : List (PanelCommand γ)} {key : SlotKey} (hissued : origin.HasIssued commands key) :
    (origin.run commands).slots.slots.Issued key := by
  obtain ⟨earlier, ⟨later, rfl⟩, id, hkey⟩ := hissued
  have hearlier := indexed_run h earlier
  rw [run_append]
  exact issued_run hearlier later (hearlier.issued hkey)

end Panel

open Panel

/-- What holds of the slot of a filter while passes contain the filter. After the commands `past`,
the pass `first` contains it, and so do the passes among `span`; `control` is the control as it was
before `first` reached it. -/
structure Tenure (origin : Panel γ) (past : List (PanelCommand γ)) (first : PanelCommand γ)
    (span : List (PanelCommand γ)) (id : FilterId) (key : SlotKey) (control : γ) : Prop where
  /-- At every point the key is the filter's alone, and its control has changed only by what was
  addressed to the filter, or done under its key, since. -/
  holds : ∀ done, done <+: span →
    (origin.run (past ++ first :: done)).slots.keyOf id = some key ∧
    (∀ other, (origin.run (past ++ first :: done)).slots.keyOf other = some key → other = id) ∧
    ∃ slot, (origin.run (past ++ first :: done)).slots.get? key = some slot ∧
      slot.item.id = id ∧
      slot.control = replay id key ((origin.run past).log (first :: done)) control
  /-- A filter that the pass before did not contain gets a key never issued before, by one call of
  the factory. -/
  begun : ¬ LatestContains id past →
    ¬ origin.HasIssued past key ∧
    ((origin.run past).records first).countP (creates id) = 1 ∧
    ∃ serial item, item.id = id ∧ control = Control.create serial item
  continued : LatestContains id past →
    (origin.run past).slots.keyOf id = some key ∧
    ((origin.run past).records first).countP (creates id) = 0 ∧
    ∃ slot, (origin.run past).slots.get? key = some slot ∧ slot.control = control
  uncreated : ((origin.run (past ++ [first])).log span).countP (creates id) = 0
  /-- A pass without the filter ends its key, at once and for ever. -/
  ended : ∀ resolve input, ¬ input.Contains resolve id →
    (origin.run (past ++ first :: (span ++ [.render resolve input]))).slots.keyOf id = none ∧
    ∀ later,
      (origin.run (past ++ first :: (span ++ .render resolve input :: later))).slots.get? key =
        none ∧
      ∀ other,
        (origin.run (past ++ first :: (span ++ .render resolve input :: later))).slots.keyOf other ≠
          some key

namespace Panel

variable {origin : Panel γ} {past span : List (PanelCommand γ)} {first : PanelCommand γ}
  {id : FilterId} {key : SlotKey} {slot : Slot γ}

theorem holds_of_slot (h : origin.slots.Indexed) (hspan : ∀ command ∈ span, command.Keeps id)
    (hkey : (origin.run (past ++ [first])).slots.keyOf id = some key)
    (hslot : (origin.run (past ++ [first])).slots.get? key = some slot)
    {control : γ}
    (hcontrol : slot.control = replay id key ((origin.run past).records first) control) :
    ∀ done, done <+: span →
      (origin.run (past ++ first :: done)).slots.keyOf id = some key ∧
      (∀ other, (origin.run (past ++ first :: done)).slots.keyOf other = some key → other = id) ∧
      ∃ slot, (origin.run (past ++ first :: done)).slots.get? key = some slot ∧
        slot.item.id = id ∧
        slot.control = replay id key ((origin.run past).log (first :: done)) control := by
  intro done hdone
  have hkeeps : ∀ command ∈ done, command.Keeps id :=
    fun command hcommand => hspan command (hdone.subset hcommand)
  obtain ⟨hkey', -, item, hslot'⟩ :=
    slot_run_of_keeps (indexed_run h (past ++ [first])) hkeeps hkey hslot
  rw [← run_append, List.append_assoc, List.singleton_append] at hkey' hslot'
  have hindexed := indexed_run h (past ++ first :: done)
  refine ⟨hkey', fun other hother => hindexed.keyOf_injective hother hkey', _, hslot', ?_, ?_⟩
  · exact hindexed.keyOf_injective (hindexed.keyed hslot') hkey'
  · show replay id key ((origin.run (past ++ [first])).log done) slot.control = _
    rw [hcontrol, log, replay_append, run_append]
    rfl

theorem ended_of_slot (h : origin.slots.Indexed) {commands : List (PanelCommand γ)}
    (hkey : (origin.run commands).slots.keyOf id = some key) {resolve : ScopeResolver}
    {input : PanelInput} (habsent : ¬ input.Contains resolve id) :
    (origin.run (commands ++ [.render resolve input])).slots.keyOf id = none ∧
    ∀ later,
      (origin.run (commands ++ .render resolve input :: later)).slots.get? key = none ∧
      ∀ other,
        (origin.run (commands ++ .render resolve input :: later)).slots.keyOf other ≠ some key := by
  have hindexed := indexed_run h commands
  obtain ⟨hnone, hretired⟩ := slot_step_of_absent hindexed habsent
  refine ⟨by rw [run_append]; exact hnone, fun later => ?_⟩
  have hlater :
      (origin.run (commands ++ .render resolve input :: later)).slots.slots.Retired key := by
    rw [run_append]
    exact retired_run (indexed_step hindexed _) later (hretired key hkey)
  refine ⟨hlater.2, fun other hother => ?_⟩
  obtain ⟨slot, hslot, -⟩ := (indexed_run h _).resolves hother
  have hgone := hlater.2
  rw [SlotTable.get?, hgone] at hslot
  cases hslot

theorem tenure_of_slot (h : origin.slots.Indexed) (hspan : ∀ command ∈ span, command.Keeps id)
    (hkey : (origin.run (past ++ [first])).slots.keyOf id = some key)
    (hslot : (origin.run (past ++ [first])).slots.get? key = some slot)
    {control : γ}
    (hcontrol : slot.control = replay id key ((origin.run past).records first) control)
    (hbegun : ¬ LatestContains id past →
      ¬ origin.HasIssued past key ∧
      ((origin.run past).records first).countP (creates id) = 1 ∧
      ∃ serial item, item.id = id ∧ control = Control.create serial item)
    (hcontinued : LatestContains id past →
      (origin.run past).slots.keyOf id = some key ∧
      ((origin.run past).records first).countP (creates id) = 0 ∧
      ∃ slot, (origin.run past).slots.get? key = some slot ∧ slot.control = control) :
    Tenure origin past first span id key control where
  holds := holds_of_slot h hspan hkey hslot hcontrol
  begun := hbegun
  continued := hcontinued
  uncreated := (slot_run_of_keeps (indexed_run h _) hspan hkey hslot).2.1
  ended := by
    have hassoc : ∀ commands : List (PanelCommand γ),
        past ++ first :: (span ++ commands) = past ++ first :: span ++ commands := by
      intro commands
      rw [List.append_assoc, List.cons_append]
    intro resolve input habsent
    have hlast := (holds_of_slot h hspan hkey hslot hcontrol span List.prefix_rfl).1
    simp only [hassoc]
    exact ended_of_slot h hlast habsent

end Panel

/-- Slots have identity over whole runs: whatever passes show a filter, and whatever is reported,
edited and listened to between them, a filter that consecutive passes contain keeps its key and its
control, and a filter that a pass does not contain loses both for good. -/
theorem slot_identity (settings : Settings) (past : List (PanelCommand γ)) (resolve : ScopeResolver)
    (input : PanelInput) (span : List (PanelCommand γ)) (id : FilterId)
    (hfirst : input.Contains resolve id) (hspan : ∀ command ∈ span, command.Keeps id) :
    ∃ key control, Tenure (start settings) past (.render resolve input) span id key control := by
  have h : (start (γ := γ) settings).slots.Indexed := SlotTable.indexed_empty
  have hlatest : (((start (γ := γ) settings).run past).slots.keyOf id).isSome ↔
      LatestContains id past := isSome_keyOf_iff settings past
  generalize start (γ := γ) settings = origin at h hlatest ⊢
  have hindexed := indexed_run h past
  have hrun : origin.run (past ++ [.render resolve input]) =
      (origin.run past).step (.render resolve input) := run_append _ _ _
  cases hkey : (origin.run past).slots.keyOf id with
  | none =>
      have habsent : ¬ LatestContains id past := by
        rw [← hlatest, hkey]
        exact Bool.false_ne_true
      obtain ⟨key, serial, item, hitem, hfresh, hkey', hcount, hslot⟩ :=
        slot_step_of_new hindexed hfirst hkey
      rw [← hrun] at hkey' hslot
      refine ⟨key, Control.create serial item,
        tenure_of_slot h hspan hkey' hslot (Slot.control_after ..) ?_ ?_⟩
      · intro _
        exact ⟨fun hissued => hfresh (hissued.issued h), hcount, serial, item, hitem, rfl⟩
      · intro hpresent
        exact absurd hpresent habsent
  | some key =>
      have hpresent : LatestContains id past := by
        rw [← hlatest, hkey]
        rfl
      obtain ⟨slot, hslot, -⟩ := hindexed.resolves hkey
      have hkeeps : (PanelCommand.render (γ := γ) resolve input).Keeps id := hfirst
      obtain ⟨hkey', hcount, item, hslot'⟩ := slot_step_of_keeps hindexed hkeeps hkey hslot
      rw [← hrun] at hkey' hslot'
      refine ⟨key, slot.control, tenure_of_slot h hspan hkey' hslot' (Slot.control_after ..) ?_ ?_⟩
      · intro habsent
        exact absurd hpresent habsent
      · intro _
        exact ⟨hkey, hcount, slot, hslot, rfl⟩

def PanelInput.ofIds (mode : LayoutMode) (ids : List FilterId) : PanelInput :=
  { mode, snapshot := { filters := ids.map fun id => { id, name := id.text } } }

/-- A filter that has left returns, is hidden, and is used while it is hidden. -/
theorem slot_identity_of_returning :
    let past : List (PanelCommand ControlRecord) :=
      [.render Tabs.split (.ofIds .vertical [⟨"a"⟩, ⟨"b"⟩]),
        .render Tabs.split (.ofIds .vertical [⟨"a"⟩])]
    let input := PanelInput.ofIds .vertical [⟨"b"⟩, ⟨"a"⟩]
    let span : List (PanelCommand ControlRecord) :=
      [.report (.overflowed [⟨"b"⟩]),
        .render Tabs.split (.ofIds .horizontal [⟨"a"⟩, ⟨"b"⟩]),
        .edit { position := 1, generation := 2 } (ControlRecord.edit "typed")]
    input.Contains Tabs.split ⟨"b"⟩ ∧ (∀ command ∈ span, command.Keeps ⟨"b"⟩) ∧
      ∃ key control,
        Tenure (start {}) past (.render Tabs.split input) span ⟨"b"⟩ key control := by
  intro past input span
  have hfirst : input.Contains Tabs.split ⟨"b"⟩ := by decide
  have hspan : ∀ command ∈ span, command.Keeps ⟨"b"⟩ := by decide
  exact ⟨hfirst, hspan, slot_identity {} past Tabs.split input span ⟨"b"⟩ hfirst hspan⟩

end DashboardFilters
