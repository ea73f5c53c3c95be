import DashboardFilters.Proofs.OverflowNotices
import DashboardFilters.Proofs.PanelRun

namespace DashboardFilters

variable {γ : Type}

/-! The overflow of a panel over a run. Whatever else a command does, to the overflow it is a few
commands of its own, so what holds of every history of an overflow holds here. -/

def PanelCommand.overflowCommands : PanelCommand γ → List OverflowCommand
  | .render resolve input =>
      [.setMode input.mode, .commit ((input.lineup resolve).row.map (·.id))]
  | .report measurement => [.report measurement]
  | .edit _ _ => []
  | .listen listener => [.listen listener]
  | .unlisten id => [.unlisten id]

theorem Overflow.run_append (overflow : Overflow) (first second : List OverflowCommand) :
    overflow.run (first ++ second) = (overflow.run first).run second :=
  List.foldl_append

theorem Overflow.mode_commit (overflow : Overflow) (known : List FilterId) :
    (overflow.commit known).overflow.mode = overflow.mode := by
  cases hmode : overflow.mode with
  | vertical =>
      rw [commit_vertical hmode]
      exact hmode
  | horizontal =>
      rw [commit_horizontal hmode]
      exact (mode_update _ _).trans hmode

/-- Leaving the row clears the overflow, and in the vertical list it stays empty. -/
theorem Overflow.ids_run_of_vertical {commands : List OverflowCommand}
    (hmode : (Overflow.run {} commands).mode = .vertical) : (Overflow.run {} commands).ids = [] := by
  have hexplains := OverflowHistory.explains_nil.run commands
  exact hexplains.leaves.eq_nil_of_vertical (hexplains.mode.symm.trans hmode)

namespace Panel

theorem mode_overflowIn (panel : Panel γ) (resolve : ScopeResolver) (input : PanelInput) :
    (panel.overflowIn resolve input).mode = input.mode :=
  (Overflow.mode_commit _ _).trans (Overflow.mode_setMode _ _)

variable [Control γ]

theorem overflow_renderWith (panel : Panel γ) (resolve : ScopeResolver) (input : PanelInput) :
    (panel.renderWith resolve input).panel.overflow = panel.overflowIn resolve input := rfl

theorem overflow_step (panel : Panel γ) (command : PanelCommand γ) :
    (panel.step command).overflow = panel.overflow.run command.overflowCommands := by
  cases command <;> rfl

theorem overflow_run (panel : Panel γ) (commands : List (PanelCommand γ)) :
    (panel.run commands).overflow =
      panel.overflow.run (commands.flatMap PanelCommand.overflowCommands) := by
  induction commands generalizing panel with
  | nil => rfl
  | cons command commands ih =>
      rw [run_cons, ih, overflow_step, List.flatMap_cons, Overflow.run_append]

theorem ids_run_of_vertical {settings : Settings} {commands : List (PanelCommand γ)}
    (hmode : ((start settings).run commands).overflow.mode = .vertical) :
    ((start settings).run commands).overflow.ids = [] := by
  rw [overflow_run] at hmode ⊢
  exact Overflow.ids_run_of_vertical hmode

theorem ids_overflowIn_of_vertical (settings : Settings) (commands : List (PanelCommand γ))
    (resolve : ScopeResolver) {input : PanelInput} (hmode : input.mode = .vertical) :
    (((start settings).run commands).overflowIn resolve input).ids = [] := by
  have hstep : (start settings).run (commands ++ [.render resolve input]) =
      (((start settings).run commands).renderWith resolve input).panel :=
    run_append _ _ _
  have hvertical : ((start settings).run (commands ++ [.render resolve input])).overflow.mode =
      .vertical := by
    rw [hstep, overflow_renderWith, mode_overflowIn, hmode]
  rw [← overflow_renderWith, ← hstep]
  exact ids_run_of_vertical hvertical

end Panel

end DashboardFilters
