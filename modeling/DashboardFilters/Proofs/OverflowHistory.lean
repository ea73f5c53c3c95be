import DashboardFilters.Overflow
import DashboardFilters.Proofs.FirstEntries

/-!
The history of an overflow. Every port fills the one place for a pending report, so of the reports
only their order counts, and listeners report in the middle of a switch or a commit. A listener that
answers differently each time is one that is replaced between commands: it is disconnected, and the
next one connected takes its position.
-/

namespace DashboardFilters

inductive OverflowCommand where
  | setMode (mode : LayoutMode)
  | report (measurement : Measurement)
  | commit (known : List FilterId)
  | listen (listener : OverflowListener)
  | unlisten (id : ConnectionId)

/-- What can happen to the mode, the pending report and the committed ids. Setting the mode that is
set already is no switch. -/
inductive OverflowMoment where
  | queued (measurement : Measurement)
  | switched (mode : LayoutMode)
  | committed (known : List FilterId)

namespace Overflow

def reportsOn (overflow : Overflow) (notice : Option OverflowNotice) : List Measurement :=
  notice.toList.flatMap fun notice => overflow.listeners.live.flatMap (·.2.reports notice.ids)

theorem reportsOn_none (overflow : Overflow) : overflow.reportsOn none = [] := rfl

/-- Whoever is connected reports, and nobody else does. -/
theorem mem_reportsOn_iff {overflow : Overflow} {notice : OverflowNotice}
    {measurement : Measurement} :
    measurement ∈ overflow.reportsOn (some notice) ↔
      ∃ id listener, overflow.listeners.connections.get? id = some listener ∧
        measurement ∈ listener.reports notice.ids := by
  simp only [reportsOn, Option.toList_some, List.flatMap_cons, List.flatMap_nil, List.append_nil,
    List.mem_flatMap, Prod.exists, Signal.mem_live_iff]

def step (overflow : Overflow) : OverflowCommand → Overflow
  | .setMode mode => (overflow.setMode mode).overflow
  | .report measurement => overflow.report measurement
  | .commit known => (overflow.commit known).overflow
  | .listen listener => overflow.listen listener
  | .unlisten id => overflow.unlisten id

/-- The moments of a command, in order. A switch or a commit takes the pending report first, so the
reports of listeners are queued after that. -/
def moments (overflow : Overflow) : OverflowCommand → List OverflowMoment
  | .setMode mode =>
      if overflow.mode = mode then
        []
      else
        .switched mode :: (overflow.reportsOn (overflow.setMode mode).notice).map .queued
  | .report measurement => [.queued measurement]
  | .commit known =>
      .committed known :: (overflow.reportsOn (overflow.commit known).notice).map .queued
  | .listen _ | .unlisten _ => []

def run (overflow : Overflow) (commands : List OverflowCommand) : Overflow :=
  commands.foldl step overflow

def history (overflow : Overflow) : List OverflowCommand → List OverflowMoment
  | [] => []
  | command :: commands => overflow.moments command ++ (overflow.step command).history commands

theorem update_eq (overflow : Overflow) (next : List FilterId) :
    (overflow.update next).1 =
      (overflow.reportsOn (overflow.update next).2).foldl report
        { overflow with overflowed := ⟨next⟩ } := by
  cases hchanges : overflow.overflowed.changes next with
  | true =>
      simp only [update, hchanges, if_true, reportsOn, Property.set, Option.toList_some,
        List.flatMap_cons, List.flatMap_nil, List.append_nil, List.flatMap_map]
  | false =>
      have hsame : overflow.overflowed = ⟨next⟩ := by
        have hvalue : overflow.overflowed.value = next := by
          simpa [Property.changes] using hchanges
        rw [← hvalue]
      simp only [update, hchanges, reportsOn, Bool.false_eq_true, if_false, Option.toList_none,
        List.flatMap_nil, List.foldl_nil, ← hsame]

theorem setMode_vertical {overflow : Overflow} (hmode : ¬ overflow.mode = .vertical) :
    overflow.setMode .vertical =
      let updated := update { overflow with mode := .vertical, pending := none } []
      { overflow := updated.1, changed := true, notice := updated.2 } :=
  if_neg hmode

theorem commit_vertical {overflow : Overflow} (hmode : overflow.mode = .vertical)
    (known : List FilterId) :
    overflow.commit known =
      { overflow := { overflow with pending := none }, changed := false, notice := none } := by
  unfold commit
  split
  · rfl
  · rename_i hother
    rw [hmode] at hother
    cases hother

theorem commit_horizontal {overflow : Overflow} (hmode : overflow.mode = .horizontal)
    (known : List FilterId) :
    overflow.commit known =
      let updated := update { overflow with pending := none }
        (distinctBy id (overflow.candidate.filter known.contains))
      { overflow := updated.1, changed := updated.2.isSome, notice := updated.2 } := by
  unfold commit
  split
  · rename_i hother
    rw [hmode] at hother
    cases hother
  · rfl

end Overflow

namespace OverflowMoment

/-- The pending report is taken, to be committed or to be dropped. -/
def takes : OverflowMoment → Bool
  | switched .vertical | committed _ => true
  | switched .horizontal | queued _ => false

def isReport : OverflowMoment → Bool
  | queued _ => true
  | switched _ | committed _ => false

def permits (id : FilterId) : OverflowMoment → Bool
  | committed known => known.contains id
  | switched _ | queued _ => true

def nextMode (mode : LayoutMode) : OverflowMoment → LayoutMode
  | switched next => next
  | committed _ | queued _ => mode

end OverflowMoment

namespace OverflowHistory

def modeAfter (history : List OverflowMoment) : LayoutMode :=
  history.foldl OverflowMoment.nextMode .vertical

/-- The report that a commit finds is the last one queued since the pending one was taken. -/
def FoundAfter (history : List OverflowMoment) (measurement : Measurement) : Prop :=
  ∃ earlier since, history = earlier ++ .queued measurement :: since ∧
    ∀ moment ∈ since, moment.takes = false ∧ moment.isReport = false

structure Applies (history : List OverflowMoment) (measurement : Measurement) : Prop where
  horizontal : modeAfter history = .horizontal
  found : FoundAfter history measurement

/-- The last commit that applied a report came after `before` and knew the ids `known`. -/
structure LastApplied (history before : List OverflowMoment) (measurement : Measurement)
    (known : List FilterId) (later : List OverflowMoment) : Prop where
  split : history = before ++ .committed known :: later
  applies : Applies before measurement
  last : ∀ mid other rest, later = mid ++ .committed other :: rest →
    ∀ measurement, ¬ Applies (before ++ .committed known :: mid) measurement

end OverflowHistory

def Measurement.ids : Measurement → List FilterId
  | overflowed ids => ids
  | unavailable => []

namespace OverflowHistory

/-- What is left of a report: the first occurrences of its ids, as far as the commit that applied it
and all commits since know them. -/
def surviving (measurement : Measurement) (known : List FilterId) (later : List OverflowMoment) :
    List FilterId :=
  (distinctBy id measurement.ids).filter fun id =>
    known.contains id && later.all (·.permits id)

/-- The ids are what the history leaves of the last report applied, or none if the row was left
since. -/
structure Leaves (history : List OverflowMoment) (ids : List FilterId) : Prop where
  applied : ∀ {before measurement known later},
    LastApplied history before measurement known later → .switched .vertical ∉ later →
      ids = surviving measurement known later
  unapplied : (∀ before measurement known later,
    LastApplied history before measurement known later → .switched .vertical ∈ later) → ids = []

variable {history : List OverflowMoment} {moment : OverflowMoment}

theorem concat_eq_append_cons {α : Type} {xs ys zs : List α} {x y : α}
    (h : xs ++ [x] = ys ++ y :: zs) :
    (zs = [] ∧ ys = xs ∧ y = x) ∨ ∃ zs', zs = zs' ++ [x] ∧ xs = ys ++ y :: zs' := by
  rcases List.eq_nil_or_concat zs with rfl | ⟨zs', z, rfl⟩
  · obtain ⟨hinit, hlast⟩ := List.append_inj' h rfl
    cases hlast
    exact .inl ⟨rfl, hinit.symm, rfl⟩
  · rw [List.concat_eq_append] at h ⊢
    rw [← List.cons_append, ← List.append_assoc] at h
    obtain ⟨hinit, hlast⟩ := List.append_inj' h rfl
    cases hlast
    exact .inr ⟨zs', rfl, hinit⟩

theorem modeAfter_concat (history : List OverflowMoment) (moment : OverflowMoment) :
    modeAfter (history ++ [moment]) = moment.nextMode (modeAfter history) :=
  List.foldl_append

theorem foundAfter_concat {measurement : Measurement} :
    FoundAfter (history ++ [moment]) measurement ↔
      moment = .queued measurement ∨
        (moment.takes = false ∧ moment.isReport = false ∧ FoundAfter history measurement) := by
  constructor
  · intro hfound
    obtain ⟨earlier, since, hhistory, hidle⟩ := hfound
    rcases concat_eq_append_cons hhistory with ⟨rfl, rfl, rfl⟩ | ⟨since, rfl, rfl⟩
    · exact .inl rfl
    · obtain ⟨htakes, hreport⟩ := hidle moment (by simp)
      exact .inr ⟨htakes, hreport, earlier, since, rfl,
        fun other hother => hidle other (List.mem_append_left _ hother)⟩
  · intro hfound
    rcases hfound with rfl | ⟨htakes, hreport, earlier, since, rfl, hidle⟩
    · exact ⟨history, [], rfl, fun _ hother => absurd hother List.not_mem_nil⟩
    · refine ⟨earlier, since ++ [moment], by simp, ?_⟩
      intro other hother
      rcases List.mem_append.1 hother with hother | hother
      · exact hidle other hother
      · rw [List.mem_singleton.1 hother]
        exact ⟨htakes, hreport⟩

theorem not_foundAfter_concat_of_takes (htakes : moment.takes = true) (measurement : Measurement) :
    ¬ FoundAfter (history ++ [moment]) measurement := by
  rw [foundAfter_concat]
  intro hfound
  rcases hfound with rfl | ⟨hno, -⟩
  · cases htakes
  · rw [htakes] at hno
    cases hno

theorem LastApplied.of_concat {before later : List OverflowMoment} {measurement : Measurement}
    {known : List FilterId}
    (h : LastApplied (history ++ [moment]) before measurement known later) :
    (later = [] ∧ moment = .committed known ∧ Applies history measurement) ∨
      ∃ later', later = later' ++ [moment] ∧ LastApplied history before measurement known later' ∧
        ∀ other measurement, moment = .committed other → ¬ Applies history measurement := by
  rcases concat_eq_append_cons h.split with ⟨rfl, rfl, rfl⟩ | ⟨later', rfl, rfl⟩
  · exact .inl ⟨rfl, rfl, h.applies⟩
  · refine .inr ⟨later', rfl, ⟨rfl, h.applies, ?_⟩, ?_⟩
    · rintro mid other rest rfl
      exact h.last mid other (rest ++ [moment]) (by simp)
    · rintro other measurement rfl
      exact h.last later' other [] rfl measurement

theorem LastApplied.concat {before later : List OverflowMoment} {measurement : Measurement}
    {known : List FilterId} (h : LastApplied history before measurement known later)
    (hmoment : ∀ other measurement, moment = .committed other → ¬ Applies history measurement) :
    LastApplied (history ++ [moment]) before measurement known (later ++ [moment]) where
  split := by rw [h.split, List.append_assoc, List.cons_append]
  applies := h.applies
  last := by
    intro mid other rest hlater
    rcases concat_eq_append_cons hlater with ⟨rfl, rfl, rfl⟩ | ⟨rest, rfl, rfl⟩
    · rw [← h.split]
      exact fun measurement => hmoment other measurement rfl
    · exact h.last mid other rest rfl

theorem surviving_concat (measurement : Measurement) (known : List FilterId)
    (later : List OverflowMoment) (moment : OverflowMoment) :
    surviving measurement known (later ++ [moment]) =
      (surviving measurement known later).filter (moment.permits ·) := by
  rw [surviving, surviving, List.filter_filter]
  congr 1
  funext id
  simp only [List.all_append, List.all_cons, List.all_nil, Bool.and_true]
  cases known.contains id <;> cases moment.permits id <;> simp

theorem nodup_surviving (measurement : Measurement) (known : List FilterId)
    (later : List OverflowMoment) : (surviving measurement known later).Nodup := by
  have hnodup := nodup_map_distinctBy id measurement.ids
  rw [List.map_id] at hnodup
  exact hnodup.filter _

namespace Leaves

variable {ids : List FilterId}

theorem nil : Leaves [] [] where
  applied := by
    intro before measurement known later h
    cases before <;> cases h.split
  unapplied := fun _ => rfl

/-- A moment that applies no report and does not leave the row only takes ids away. -/
theorem concat (h : Leaves history ids) (hswitch : moment ≠ .switched .vertical)
    (hmoment : ∀ other measurement, moment = .committed other → ¬ Applies history measurement) :
    Leaves (history ++ [moment]) (ids.filter (moment.permits ·)) where
  applied := by
    intro before measurement known later hlast hvertical
    rcases hlast.of_concat with ⟨-, rfl, happlies⟩ | ⟨later, rfl, hlast, -⟩
    · exact absurd happlies (hmoment known measurement rfl)
    · have hvertical : .switched .vertical ∉ later :=
        fun hmem => hvertical (List.mem_append_left _ hmem)
      rw [surviving_concat, h.applied hlast hvertical]
  unapplied := by
    intro hall
    rw [h.unapplied, List.filter_nil]
    intro before measurement known later hlast
    have hmem := hall before measurement known _ (hlast.concat hmoment)
    rcases List.mem_append.1 hmem with hmem | hmem
    · exact hmem
    · exact absurd (List.mem_singleton.1 hmem).symm hswitch

theorem idle (h : Leaves history ids) (hswitch : moment ≠ .switched .vertical)
    (hcommit : ∀ known, moment ≠ .committed known) : Leaves (history ++ [moment]) ids := by
  have hconcat := h.concat hswitch fun known _ hknown => absurd hknown (hcommit known)
  have hall : ∀ id ∈ ids, moment.permits id = true := by
    intro id _
    cases moment with
    | committed known => exact absurd rfl (hcommit known)
    | switched | queued => rfl
  rw [List.filter_eq_self.2 hall] at hconcat
  exact hconcat

theorem leave (history : List OverflowMoment) : Leaves (history ++ [.switched .vertical]) [] where
  applied := by
    intro before measurement known later hlast hvertical
    rcases hlast.of_concat with ⟨-, hno, -⟩ | ⟨later, rfl, -, -⟩
    · cases hno
    · exact absurd (List.mem_append_right _ List.mem_cons_self) hvertical
  unapplied := fun _ => rfl

theorem apply {measurement : Measurement} (happlies : Applies history measurement)
    (hunique : ∀ other, FoundAfter history other → other = measurement) (known : List FilterId) :
    Leaves (history ++ [.committed known]) (surviving measurement known []) where
  applied := by
    intro before other known' later hlast _
    rcases hlast.of_concat with ⟨rfl, hknown, hother⟩ | ⟨later, rfl, -, hno⟩
    · cases hknown
      rw [hunique other hother.found]
    · exact absurd happlies (hno known measurement rfl)
  unapplied := by
    intro hall
    have hlast : LastApplied (history ++ [.committed known]) history measurement known [] := by
      refine ⟨rfl, happlies, ?_⟩
      intro mid other rest hnil
      cases mid <;> cases hnil
    exact absurd (hall _ _ _ _ hlast) List.not_mem_nil

theorem cases (h : Leaves history ids) :
    (∃ before measurement known later, LastApplied history before measurement known later ∧
      .switched .vertical ∉ later ∧ ids = surviving measurement known later) ∨ ids = [] := by
  apply Classical.or_iff_not_imp_left.2
  intro hnone
  apply h.unapplied
  intro before measurement known later hlast
  apply Classical.byContradiction
  intro hvertical
  exact hnone ⟨before, measurement, known, later, hlast, hvertical, h.applied hlast hvertical⟩

theorem nodup (h : Leaves history ids) : ids.Nodup := by
  rcases h.cases with ⟨before, measurement, known, later, -, -, rfl⟩ | rfl
  · exact nodup_surviving measurement known later
  · exact List.nodup_nil

end Leaves

theorem modeAfter_of_not_left {before later : List OverflowMoment}
    (hbefore : modeAfter before = .horizontal) (hlater : .switched .vertical ∉ later) :
    modeAfter (before ++ later) = .horizontal := by
  induction later generalizing before with
  | nil =>
      rw [List.append_nil]
      exact hbefore
  | cons moment later ih =>
      rw [← List.singleton_append, ← List.append_assoc]
      apply ih
      · rw [modeAfter_concat, hbefore]
        cases moment with
        | switched mode =>
            cases mode with
            | vertical => exact absurd List.mem_cons_self hlater
            | horizontal => rfl
        | queued | committed => rfl
      · exact fun hmem => hlater (List.mem_cons_of_mem _ hmem)

theorem Leaves.eq_nil_of_vertical {ids : List FilterId} (h : Leaves history ids)
    (hmode : modeAfter history = .vertical) : ids = [] := by
  apply h.unapplied
  intro before measurement known later hlast
  apply Classical.byContradiction
  intro hvertical
  have hhorizontal : modeAfter history = .horizontal := by
    rw [hlast.split]
    apply modeAfter_of_not_left hlast.applies.horizontal
    intro hmem
    rcases List.mem_cons.1 hmem with hmem | hmem
    · cases hmem
    · exact hvertical hmem
  rw [hmode] at hhorizontal
  cases hhorizontal

structure Explains (history : List OverflowMoment) (overflow : Overflow) : Prop where
  mode : overflow.mode = modeAfter history
  pending : ∀ measurement, overflow.pending = some measurement ↔ FoundAfter history measurement
  leaves : Leaves history overflow.ids

theorem explains_nil : Explains [] {} where
  mode := rfl
  pending := by
    intro measurement
    constructor
    · intro h
      cases h
    · intro hfound
      obtain ⟨earlier, since, h, -⟩ := hfound
      cases earlier <;> cases h
  leaves := .nil

namespace Explains

variable {overflow : Overflow}

theorem report (h : Explains history overflow) (measurement : Measurement) :
    Explains (history ++ [.queued measurement]) (overflow.report measurement) where
  mode := by
    rw [modeAfter_concat]
    exact h.mode
  pending := by
    intro other
    rw [foundAfter_concat]
    show some measurement = some other ↔ _
    constructor
    · intro heq
      cases heq
      exact .inl rfl
    · intro hfound
      rcases hfound with heq | ⟨-, hno, -⟩
      · cases heq
        rfl
      · cases hno
  leaves := h.leaves.idle (by simp) (by simp)

theorem reports (h : Explains history overflow) (measurements : List Measurement) :
    Explains (history ++ measurements.map .queued)
      (measurements.foldl Overflow.report overflow) := by
  induction measurements generalizing history overflow with
  | nil =>
      rw [List.map_nil, List.append_nil]
      exact h
  | cons measurement measurements ih =>
      rw [List.map_cons, ← List.singleton_append, ← List.append_assoc]
      exact ih (h.report measurement)

theorem update (overflow : Overflow) {next : List FilterId}
    (h : Explains history { overflow with overflowed := ⟨next⟩ }) :
    Explains (history ++ (overflow.reportsOn (overflow.update next).2).map .queued)
      (overflow.update next).1 := by
  rw [Overflow.update_eq]
  exact h.reports _

theorem switch_horizontal (h : Explains history overflow) :
    Explains (history ++ [.switched .horizontal]) { overflow with mode := .horizontal } where
  mode := by
    rw [modeAfter_concat]
    rfl
  pending := by
    intro measurement
    rw [foundAfter_concat]
    constructor
    · intro hpending
      exact .inr ⟨rfl, rfl, (h.pending measurement).1 hpending⟩
    · intro hfound
      rcases hfound with hno | ⟨-, -, hfound⟩
      · cases hno
      · exact (h.pending measurement).2 hfound
  leaves := h.leaves.idle (by simp) (by simp)

theorem switch_vertical (history : List OverflowMoment) (overflow : Overflow) :
    Explains (history ++ [.switched .vertical])
      { overflow with mode := .vertical, pending := none, overflowed := ⟨[]⟩ } where
  mode := by
    rw [modeAfter_concat]
    rfl
  pending := by
    intro measurement
    exact iff_of_false (by simp) (not_foundAfter_concat_of_takes rfl measurement)
  leaves := .leave history

theorem commit_vertical (h : Explains history overflow) (hmode : overflow.mode = .vertical)
    (known : List FilterId) :
    Explains (history ++ [.committed known]) { overflow with pending := none } where
  mode := by
    rw [modeAfter_concat]
    exact h.mode
  pending := by
    intro measurement
    exact iff_of_false (by simp) (not_foundAfter_concat_of_takes rfl measurement)
  leaves := by
    have hvertical : modeAfter history = .vertical := h.mode.symm.trans hmode
    have hempty : overflow.ids = [] := h.leaves.eq_nil_of_vertical hvertical
    have hnone : ∀ measurement, ¬ Applies history measurement := by
      intro measurement happlies
      rw [happlies.horizontal] at hvertical
      cases hvertical
    have hleaves : Leaves (history ++ [.committed known]) (overflow.ids.filter known.contains) :=
      h.leaves.concat (by simp) fun _ measurement _ => hnone measurement
    rw [hempty] at hleaves
    show Leaves _ overflow.ids
    rw [hempty]
    exact hleaves

theorem commit_horizontal (h : Explains history overflow) (hmode : overflow.mode = .horizontal)
    (known : List FilterId) :
    Explains (history ++ [.committed known])
      { overflow with
        pending := none
        overflowed := ⟨distinctBy id (overflow.candidate.filter known.contains)⟩ } where
  mode := by
    rw [modeAfter_concat]
    exact h.mode
  pending := by
    intro measurement
    exact iff_of_false (by simp) (not_foundAfter_concat_of_takes rfl measurement)
  leaves := by
    show Leaves _ (distinctBy id (overflow.candidate.filter known.contains))
    cases hpending : overflow.pending with
    | some measurement =>
        have happlies : Applies history measurement :=
          ⟨h.mode.symm.trans hmode, (h.pending measurement).1 hpending⟩
        have hunique : ∀ other, FoundAfter history other → other = measurement := by
          intro other hother
          have hsame := (h.pending other).2 hother
          rw [hpending] at hsame
          cases hsame
          rfl
        have hcandidate : overflow.candidate = measurement.ids := by
          unfold Overflow.candidate
          rw [hpending]
          cases measurement <;> rfl
        have hsurviving : distinctBy id (measurement.ids.filter known.contains) =
            surviving measurement known [] := by
          simp only [surviving, List.all_nil, Bool.and_true]
          exact (filter_distinctBy known.contains measurement.ids).symm
        rw [hcandidate, hsurviving]
        exact .apply happlies hunique known
    | none =>
        have hnone : ∀ measurement, ¬ Applies history measurement := by
          intro measurement happlies
          have hsome := (h.pending measurement).2 happlies.found
          rw [hpending] at hsome
          cases hsome
        have hcandidate : overflow.candidate = overflow.ids := by
          unfold Overflow.candidate
          rw [hpending]
        have hnodup : ((overflow.ids.filter known.contains).map id).Nodup := by
          rw [List.map_id]
          exact h.leaves.nodup.filter _
        rw [hcandidate, distinctBy_of_nodup hnodup]
        exact h.leaves.concat (by simp) fun _ measurement _ => hnone measurement

theorem step (h : Explains history overflow) (command : OverflowCommand) :
    Explains (history ++ overflow.moments command) (overflow.step command) := by
  cases command with
  | setMode mode =>
      by_cases hsame : overflow.mode = mode
      · simp only [Overflow.moments, Overflow.step, Overflow.setMode, if_pos hsame, List.append_nil]
        exact h
      · cases mode with
        | horizontal =>
            simp only [Overflow.moments, Overflow.step, Overflow.setMode, if_neg hsame]
            exact h.switch_horizontal
        | vertical =>
            rw [Overflow.moments, if_neg hsame, Overflow.step, Overflow.setMode_vertical hsame,
              ← List.singleton_append, ← List.append_assoc]
            exact update { overflow with mode := .vertical, pending := none }
              (switch_vertical history overflow)
  | report measurement => exact h.report measurement
  | commit known =>
      rw [Overflow.moments, Overflow.step, ← List.singleton_append, ← List.append_assoc]
      cases hmode : overflow.mode with
      | vertical =>
          rw [Overflow.commit_vertical hmode, Overflow.reportsOn_none, List.map_nil,
            List.append_nil]
          exact h.commit_vertical hmode known
      | horizontal =>
          rw [Overflow.commit_horizontal hmode]
          exact update { overflow with pending := none } (h.commit_horizontal hmode known)
  | listen | unlisten =>
      simp only [Overflow.moments, List.append_nil]
      exact ⟨h.mode, h.pending, h.leaves⟩

theorem run (h : Explains history overflow) (commands : List OverflowCommand) :
    Explains (history ++ overflow.history commands) (overflow.run commands) := by
  induction commands generalizing history overflow with
  | nil =>
      rw [Overflow.history, List.append_nil]
      exact h
  | cons command commands ih =>
      rw [Overflow.history, ← List.append_assoc]
      exact ih (h.step command)

end Explains

theorem Leaves.mem_latest {ids : List FilterId} (h : Leaves history ids)
    {before later : List OverflowMoment} {known : List FilterId}
    (hsplit : history = before ++ .committed known :: later)
    (hlatest : ∀ other, .committed other ∉ later) {id : FilterId} (hid : id ∈ ids) :
    id ∈ known := by
  rcases h.cases with ⟨before', measurement, known', later', hlast, -, rfl⟩ | rfl
  · have hpermits := (List.mem_filter.1 hid).2
    rw [Bool.and_eq_true, List.contains_iff_mem, List.all_eq_true] at hpermits
    have hsplits := hlast.split.symm.trans hsplit
    rcases List.append_eq_append_iff.1 hsplits with ⟨mid, -, hmid⟩ | ⟨mid, -, hmid⟩
    · cases mid with
      | nil =>
          cases hmid
          exact hpermits.1
      | cons moment mid =>
          -- The latest commit came after the one that applied the report.
          cases hmid
          have hpermit := hpermits.2 (.committed known) (by simp)
          exact List.contains_iff_mem.1 hpermit
    · cases mid with
      | nil =>
          cases hmid
          exact hpermits.1
      | cons moment mid =>
          cases hmid
          exact absurd (by simp) (hlatest known')
  · cases hid

structure ClosedForm (history : List OverflowMoment) (overflow : Overflow) : Prop
    extends Explains history overflow where
  nodup : overflow.ids.Nodup
  vertical : overflow.mode = .vertical → overflow.ids = []
  known : ∀ {before known later}, history = before ++ .committed known :: later →
    (∀ other, .committed other ∉ later) → ∀ id ∈ overflow.ids, id ∈ known

end OverflowHistory

open OverflowHistory

/-- Whatever is set, reported, committed and listened to, the history alone determines the mode, the
pending report and the committed ids. -/
theorem closedForm_run (commands : List OverflowCommand) :
    ClosedForm (Overflow.history {} commands) (Overflow.run {} commands) := by
  have hexplains := explains_nil.run commands
  rw [List.nil_append] at hexplains
  refine ⟨hexplains, hexplains.leaves.nodup, ?_, ?_⟩
  · intro hmode
    exact hexplains.leaves.eq_nil_of_vertical (hexplains.mode.symm.trans hmode)
  · intro before known later hsplit hlatest id hid
    exact hexplains.leaves.mem_latest hsplit hlatest hid

/-- A listener answers the first change with a report, which only the next commit finds; the third
commit finds none, and takes away what it does not know. -/
example :
    let listener : OverflowListener :=
      { tag := "watch", reports := fun ids =>
          if ids = [⟨"a"⟩] then [.overflowed [⟨"b"⟩, ⟨"c"⟩, ⟨"b"⟩]] else [] }
    (Overflow.run {} [.listen listener, .setMode .horizontal, .report (.overflowed [⟨"a"⟩]),
      .commit [⟨"a"⟩, ⟨"b"⟩], .commit [⟨"b"⟩, ⟨"c"⟩], .commit [⟨"c"⟩]]).ids = [⟨"c"⟩] := by
  decide

end DashboardFilters
