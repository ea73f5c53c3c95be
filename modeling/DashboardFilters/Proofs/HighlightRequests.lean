import DashboardFilters.Proofs.OverflowView
import DashboardFilters.Proofs.PanelOverflow

/-!
Requests to open the drop-down. A version is used up by the first highlight that has it, whether or
not that one opens anything; a highlight whose version is above all used ones opens the drop-down
exactly if the pass that brings it leaves its filter in the overflow.
-/

namespace DashboardFilters

variable {γ : Type}

namespace Highlight

def version? (highlight : Highlight) : Option UInt64 :=
  highlight.id.map fun _ => highlight.version

def trimmed (highlight : Highlight) : Highlight :=
  match highlight.id with
  | none => {}
  | some _ => highlight

@[simp] theorem version?_of_none {highlight : Highlight} (h : highlight.id = none) :
    highlight.version? = none := by
  rw [version?, h, Option.map_none]

@[simp] theorem version?_of_some {highlight : Highlight} {id : FilterId}
    (h : highlight.id = some id) : highlight.version? = some highlight.version := by
  rw [version?, h, Option.map_some]

end Highlight

namespace HighlightLog

variable {log : HighlightLog} {highlight : Highlight} {versions : List UInt64}
  {overflowed : List FilterId}

/-- The log tells of every version whether it is above all the given ones. -/
def Tracks (log : HighlightLog) (versions : List UInt64) : Prop :=
  ∀ version, log.isNew version = true ↔ ∀ used ∈ versions, used < version

theorem tracks_nil : Tracks {} [] := by
  intro version
  simp [isNew]

theorem observe_of_none (h : highlight.id = none) :
    log.observe highlight overflowed = (log, none) := by
  rw [observe, h]

theorem observe_of_new {id : FilterId} (h : highlight.id = some id)
    (hnew : log.isNew highlight.version = true) :
    log.observe highlight overflowed =
      ({ handled := some highlight.version }, if overflowed.contains id then some id else none) := by
  simp only [observe, h, hnew, if_true]

theorem observe_of_old (hold : log.isNew highlight.version = false) :
    log.observe highlight overflowed = (log, none) := by
  unfold observe
  split
  · rfl
  · rw [hold]
    rfl

theorem observe_trimmed (log : HighlightLog) (highlight : Highlight)
    (overflowed : List FilterId) :
    log.observe highlight.trimmed overflowed = log.observe highlight overflowed := by
  unfold Highlight.trimmed
  split
  · rename_i hnone
    rw [observe_of_none hnone]
    rfl
  · rfl

/-- The log keeps only the highest version, which is enough to compare new ones with all. -/
theorem Tracks.observe (h : log.Tracks versions) (highlight : Highlight)
    (overflowed : List FilterId) :
    (log.observe highlight overflowed).1.Tracks (versions ++ highlight.version?.toList) := by
  cases hid : highlight.id with
  | none =>
      rw [observe_of_none hid, Highlight.version?_of_none hid, Option.toList_none, List.append_nil]
      exact h
  | some id =>
      rw [Highlight.version?_of_some hid, Option.toList_some]
      intro version
      rw [List.forall_mem_append, List.forall_mem_singleton]
      cases hnew : log.isNew highlight.version with
      | true =>
          rw [observe_of_new hid hnew]
          have hbelow := (h highlight.version).1 hnew
          simp only [isNew, decide_eq_true_eq]
          constructor
          · exact fun hlt => ⟨fun used hused => UInt64.lt_trans (hbelow used hused) hlt, hlt⟩
          · exact And.right
      | false =>
          rw [observe_of_old hnew, h version]
          have hsome : ¬ ∀ used ∈ versions, used < highlight.version := by
            rw [← h, hnew]
            exact Bool.false_ne_true
          refine ⟨fun hbelow => ⟨hbelow, ?_⟩, And.left⟩
          -- Some used version is at least the one of the highlight.
          apply UInt64.not_le.1
          intro hle
          exact hsome fun used hused => UInt64.lt_of_lt_of_le (hbelow used hused) hle

theorem opened_observe_iff (h : log.Tracks versions) {id : FilterId} :
    (log.observe highlight overflowed).2 = some id ↔
      highlight.id = some id ∧ (∀ used ∈ versions, used < highlight.version) ∧
        id ∈ overflowed := by
  rw [← h]
  cases hid : highlight.id with
  | none =>
      rw [observe_of_none hid]
      simp
  | some other =>
      cases hnew : log.isNew highlight.version with
      | true =>
          simp only [observe_of_new hid hnew, Option.ite_none_right_eq_some, Option.some.injEq,
            List.contains_iff_mem, true_and]
          constructor
          · rintro ⟨hmem, rfl⟩
            exact ⟨rfl, hmem⟩
          · rintro ⟨rfl, hmem⟩
            exact ⟨hmem, rfl⟩
      | false =>
          rw [observe_of_old hnew]
          simp

end HighlightLog

namespace PanelCommand

def version? : PanelCommand γ → Option UInt64
  | .render _ input => input.highlight.version?
  | .report _ | .edit _ _ | .listen _ | .unlisten _ => none

def trimmed : PanelCommand γ → PanelCommand γ
  | .render resolve input => .render resolve { input with highlight := input.highlight.trimmed }
  | command => command

end PanelCommand

def usedVersions (commands : List (PanelCommand γ)) : List UInt64 :=
  commands.filterMap PanelCommand.version?

def PanelEvent.opening? : PanelEvent → Option FilterId
  | .openRequested id => some id
  | _ => none

def Rendered.openings (rendered : Rendered γ) : List FilterId :=
  rendered.events.filterMap PanelEvent.opening?

section Passes

variable [Control γ]

namespace Panel

variable {panel : Panel γ} {versions : List UInt64} {resolve : ScopeResolver} {input : PanelInput}

theorem openings_renderWith (panel : Panel γ) (resolve : ScopeResolver) (input : PanelInput) :
    (panel.renderWith resolve input).openings =
      (panel.highlights.observe input.highlight
        (panel.overflowIn resolve input).ids).2.toList := by
  have hgroup : ∀ event : PanelEvent, event.group ≠ .announcement → event.opening? = none := by
    intro event hother
    cases event with
    | openRequested => exact absurd rfl hother
    | created | placed | cleared | clearCompleted | overflowChanged | selected => rfl
  rw [Rendered.openings, panel.filterMap_renderWith resolve input hgroup, eventsOf, announcements,
    List.filterMap_append, List.filterMap_map, List.filterMap_map]
  have hnotices : ∀ notices : List OverflowNotice,
      notices.filterMap (PanelEvent.opening? ∘ .overflowChanged) = [] := by
    intro notices
    exact List.filterMap_eq_nil_iff.2 fun _ _ => rfl
  rw [hnotices, List.nil_append]
  exact List.filterMap_some

theorem tracks_step (h : panel.highlights.Tracks versions) (command : PanelCommand γ) :
    (panel.step command).highlights.Tracks (versions ++ command.version?.toList) := by
  cases command with
  | render resolve input => exact h.observe input.highlight _
  | report | edit | listen | unlisten =>
      rw [PanelCommand.version?, Option.toList_none, List.append_nil]
      exact h

theorem tracks_run (h : panel.highlights.Tracks versions) (commands : List (PanelCommand γ)) :
    (panel.run commands).highlights.Tracks (versions ++ usedVersions commands) := by
  induction commands generalizing panel versions with
  | nil =>
      rw [usedVersions, List.filterMap_nil, List.append_nil]
      exact h
  | cons command commands ih =>
      have hrest := ih (tracks_step h command)
      have hversions : usedVersions (command :: commands) =
          command.version?.toList ++ usedVersions commands := by
        rw [usedVersions, List.filterMap_cons]
        cases command.version? <;> rfl
      rw [hversions, ← List.append_assoc]
      exact hrest

theorem mem_openings_iff (h : panel.highlights.Tracks versions) {id : FilterId} :
    id ∈ (panel.renderWith resolve input).openings ↔
      input.highlight.id = some id ∧ (∀ version ∈ versions, version < input.highlight.version) ∧
        id ∈ (panel.overflowIn resolve input).ids := by
  rw [openings_renderWith, Option.mem_toList]
  exact HighlightLog.opened_observe_iff h

def fired (panel : Panel γ) : PanelCommand γ → List UInt64
  | .render resolve input =>
      (panel.renderWith resolve input).openings.map fun _ => input.highlight.version
  | .report _ | .edit _ _ | .listen _ | .unlisten _ => []

def firedVersions (panel : Panel γ) : List (PanelCommand γ) → List UInt64
  | [] => []
  | command :: commands => panel.fired command ++ (panel.step command).firedVersions commands

theorem length_openings_le (panel : Panel γ) (resolve : ScopeResolver) (input : PanelInput) :
    (panel.renderWith resolve input).openings.length ≤ 1 := by
  rw [openings_renderWith]
  exact Option.length_toList_le

theorem pairwise_fired (panel : Panel γ) (command : PanelCommand γ) :
    (panel.fired command).Pairwise (· < ·) := by
  cases command with
  | render resolve input =>
      rw [fired, openings_renderWith]
      cases (panel.highlights.observe input.highlight (panel.overflowIn resolve input).ids).2 with
      | none => exact .nil
      | some id => exact List.pairwise_singleton _ _
  | report | edit | listen | unlisten => exact .nil

theorem of_mem_fired (h : panel.highlights.Tracks versions) {command : PanelCommand γ}
    {version : UInt64} (hfired : version ∈ panel.fired command) :
    command.version? = some version ∧ ∀ used ∈ versions, used < version := by
  cases command with
  | render resolve input =>
      obtain ⟨id, hid, rfl⟩ := List.mem_map.1 hfired
      obtain ⟨hhighlight, hbelow, -⟩ := (mem_openings_iff h).1 hid
      exact ⟨Highlight.version?_of_some hhighlight, hbelow⟩
  | report | edit | listen | unlisten => cases hfired

theorem lt_of_mem_firedVersions (h : panel.highlights.Tracks versions)
    {commands : List (PanelCommand γ)} {version : UInt64}
    (hfired : version ∈ panel.firedVersions commands) : ∀ used ∈ versions, used < version := by
  induction commands generalizing panel versions with
  | nil => cases hfired
  | cons command commands ih =>
      rcases List.mem_append.1 hfired with hfirst | hlater
      · exact (of_mem_fired h hfirst).2
      · have hbelow := ih (tracks_step h command) hlater
        exact fun used hused => hbelow used (List.mem_append_left _ hused)

theorem pairwise_firedVersions (h : panel.highlights.Tracks versions)
    (commands : List (PanelCommand γ)) : (panel.firedVersions commands).Pairwise (· < ·) := by
  induction commands generalizing panel versions with
  | nil => exact .nil
  | cons command commands ih =>
      rw [firedVersions, List.pairwise_append]
      refine ⟨panel.pairwise_fired command, ih (tracks_step h command), ?_⟩
      intro version hfirst later hlater
      have hused := (of_mem_fired h hfirst).1
      apply lt_of_mem_firedVersions (tracks_step h command) hlater
      rw [hused]
      exact List.mem_append_right _ List.mem_cons_self

theorem step_trimmed (panel : Panel γ) (command : PanelCommand γ) :
    panel.step command.trimmed = panel.step command ∧
      panel.records command.trimmed = panel.records command := by
  cases command with
  | render resolve input =>
      have hrendered : panel.renderWith resolve
          { input with highlight := input.highlight.trimmed } = panel.renderWith resolve input := by
        simp only [renderWith, HighlightLog.observe_trimmed]
      rw [PanelCommand.trimmed, step, records, hrendered]
      exact ⟨rfl, rfl⟩
  | report | edit | listen | unlisten => exact ⟨rfl, rfl⟩

theorem run_trimmed (panel : Panel γ) (commands : List (PanelCommand γ)) :
    panel.run (commands.map PanelCommand.trimmed) = panel.run commands ∧
      panel.log (commands.map PanelCommand.trimmed) = panel.log commands := by
  induction commands generalizing panel with
  | nil => exact ⟨rfl, rfl⟩
  | cons command commands ih =>
      obtain ⟨hstep, hrecords⟩ := panel.step_trimmed command
      obtain ⟨hrun, hlog⟩ := ih (panel.step command)
      rw [List.map_cons, run_cons, log, hstep, hrecords, hrun, hlog]
      exact ⟨rfl, rfl⟩

end Panel

end Passes

structure HorizontalView.Hides (view : HorizontalView) (id : FilterId) : Prop where
  inRow : id ∈ view.row.map (·.slot.id)
  flagged : ∀ entry ∈ view.row, entry.slot.id = id → entry.overflowed = true
  listed : ∃ dropdown, view.dropdown = some dropdown ∧
    id ∈ (dropdown.cross ++ dropdown.inScope).map (·.id)

theorem Overflow.exists_item_of_mem_ids {overflow : Overflow} {inScope cross : List FilterItem}
    (hknown : ∀ id ∈ overflow.ids, id ∈ (inScope ++ cross).map (·.id)) {id : FilterId}
    (hid : id ∈ overflow.ids) :
    ∃ item ∈ (overflow.split inScope cross).cross ++ (overflow.split inScope cross).inScope,
      item.id = id := by
  rw [← map_id_pickedItems hknown] at hid
  obtain ⟨item, hitem, hsame⟩ := List.mem_map.1 hid
  exact ⟨item, (overflow.perm_split inScope cross).symm.subset hitem, hsame⟩

namespace Lineup

variable {lineup : Lineup} {snapshot : Snapshot} {labels : TriggerLabels} {overflow : Overflow}
  {table : SlotTable γ}

theorem hides_horizontalView (hkeyed : table.Holds lineup.row)
    (hknown : ∀ id ∈ overflow.ids, id ∈ (lineup.natives ++ lineup.cross).map (·.id))
    {id : FilterId} (hid : id ∈ overflow.ids) :
    (lineup.horizontalView snapshot labels overflow table).Hides id where
  inRow := by
    rw [horizontalView, map_id_row hkeyed]
    exact (lineup.perm_groups.map FilterItem.id).mem_iff.1 (hknown id hid)
  flagged := by
    intro entry hentry hsame
    rw [overflowed_of_mem_row hentry, hsame]
    exact List.contains_iff_mem.2 hid
  listed := by
    obtain ⟨item, hitem, rfl⟩ := Overflow.exists_item_of_mem_ids hknown hid
    have hempty : (overflow.split lineup.natives lineup.cross).isEmpty = false := by
      rw [← Bool.not_eq_true, Overflow.isEmpty_split_iff hknown]
      exact List.ne_nil_of_mem hid
    obtain ⟨key, hkey⟩ := Option.isSome_iff_exists.1 (hkeyed item (mem_split hitem).1)
    have href : { key, id := item.id, kind := item.kind : SlotRef } ∈
        table.slotRefs ((overflow.split lineup.natives lineup.cross).cross ++
          (overflow.split lineup.natives lineup.cross).inScope) :=
      SlotTable.mem_slotRefs_iff.2 ⟨item, hitem, hkey, rfl, rfl⟩
    rw [SlotTable.slotRefs_append] at href
    refine ⟨{
      cross := table.slotRefs (overflow.split lineup.natives lineup.cross).cross
      inScope := table.slotRefs (overflow.split lineup.natives lineup.cross).inScope
      outOfScope := lineup.outOfScopeSection snapshot table }, ?_, List.mem_map_of_mem href⟩
    show lineup.dropdown? snapshot (overflow.split lineup.natives lineup.cross) table = _
    simp only [dropdown?, hempty, Bool.false_and, Bool.false_eq_true, if_false]

end Lineup

namespace Panel

variable [Control γ] {panel : Panel γ} {resolve : ScopeResolver} {input : PanelInput}

theorem hides_renderWith (h : panel.slots.Indexed) (hmode : input.mode = .horizontal)
    {id : FilterId} (hid : id ∈ (panel.overflowIn resolve input).ids) :
    ∃ view, (panel.renderWith resolve input).view = .horizontal view ∧ view.Hides id := by
  refine ⟨_, view_renderWith_of_horizontal resolve hmode panel, ?_⟩
  have hrow := (holds_renderWith h resolve input).subset (List.subset_append_left _ _)
  exact Lineup.hides_horizontalView hrow (known_overflowIn hmode) hid

end Panel

/-- What a pass does about its highlight, after the commands `past`. -/
structure Rendered.AnswersHighlight (rendered : Rendered γ) (past : List (PanelCommand γ))
    (input : PanelInput) : Prop where
  once : rendered.openings.length ≤ 1
  /-- A version opens the drop-down only if it is above all versions used, also those that opened
  nothing. -/
  opens_iff : ∀ id, id ∈ rendered.openings ↔ input.highlight.id = some id ∧
    (∀ version ∈ usedVersions past, version < input.highlight.version) ∧
      id ∈ rendered.panel.overflow.ids
  shown : ∀ id ∈ rendered.openings, ∃ view, rendered.view = .horizontal view ∧ view.Hides id

open Panel in
/-- Every pass answers its highlight by the versions used before it and the overflow that it leaves;
over a run the answered versions ascend, and a highlight without an id is as good as none. -/
theorem openings_follow_highlights [Control γ] (settings : Settings) :
    (∀ (past : List (PanelCommand γ)) (resolve : ScopeResolver) (input : PanelInput),
      (((start settings).run past).renderWith resolve input).AnswersHighlight past input) ∧
    (∀ commands : List (PanelCommand γ),
      ((start settings).firedVersions commands).Pairwise (· < ·)) ∧
    (∀ commands : List (PanelCommand γ),
      (start settings).run (commands.map PanelCommand.trimmed) = (start settings).run commands ∧
      (start settings).log (commands.map PanelCommand.trimmed) =
        (start settings).log commands) := by
  have hstart : (start (γ := γ) settings).highlights.Tracks [] := HighlightLog.tracks_nil
  refine ⟨?_, fun commands => pairwise_firedVersions hstart commands,
    fun commands => run_trimmed _ commands⟩
  intro past resolve input
  have htracks : ((start settings).run past).highlights.Tracks (usedVersions past) := by
    have hrun := tracks_run hstart past
    rw [List.nil_append] at hrun
    exact hrun
  have hindexed : ((start (γ := γ) settings).run past).slots.Indexed :=
    indexed_run SlotTable.indexed_empty past
  constructor
  case once => exact length_openings_le _ resolve input
  case opens_iff => exact fun id => mem_openings_iff htracks
  case shown =>
    intro id hid
    obtain ⟨-, -, hoverflowed⟩ := (mem_openings_iff htracks).1 hid
    cases hmode : input.mode with
    | horizontal => exact hides_renderWith hindexed hmode hoverflowed
    | vertical =>
        rw [ids_overflowIn_of_vertical settings past resolve hmode] at hoverflowed
        cases hoverflowed

end DashboardFilters
