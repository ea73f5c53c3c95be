import DashboardFilters.Proofs.FullForms

/-!
Masks that are encoded as JSON values and decoded again. The encoding does not tell an explicit
`null` from a selection that is absent, so the first comes back as the second. Neither is a
selection, and the cross-filters stay the same. Masks that go through text are another matter, since
`Json.read?` may take the text of a double to a double beside it.
-/

namespace DashboardFilters

open Json

/-- A value that is not there is written as `null`, and `null` reads as a value that is not there. -/
def Json.unlessNull : Option Json → Option Json
  | some .null => none
  | value => value

theorem Json.ofJson?_toJson_optional (value : Option Json) :
    ofJson? (toJson value) = some (unlessNull value) := by
  cases value with
  | none => rfl
  | some value => cases value <;> rfl

theorem Json.filter_isTruthy_unlessNull (value : Option Json) :
    (unlessNull value).filter isTruthy = value.filter isTruthy := by
  cases value with
  | none => rfl
  | some value => cases value <;> rfl

def Selection.reloaded (selection : Selection) : Selection :=
  { selection with value := unlessNull selection.value }

theorem Selection.ofJson?_toJson_eq (selection : Selection) :
    ofJson? (toJson selection) = some selection.reloaded := by
  refine Option.bind_eq_some_iff.2 ⟨_, record?_ofFields rfl (by decide), ?_⟩
  simp [defaulting, ofJson?_toJson_optional, reloaded]

theorem Selection.label?_reloaded (selection : Selection) :
    selection.reloaded.label? = selection.label? := by
  simp only [label?, reloaded, filter_isTruthy_unlessNull]

namespace DataMask

def reloaded (mask : DataMask) : DataMask :=
  { mask with selection := mask.selection.reloaded }

theorem ofJson?_toJson_eq (mask : DataMask) : ofJson? (toJson mask) = some mask.reloaded := by
  refine Option.bind_eq_some_iff.2 ⟨_, record?_ofFields rfl (by decide), ?_⟩
  simp [defaulting, Selection.ofJson?_toJson_eq, reloaded]

/-- The second mask differs from the first in nothing but a selected value that is explicitly `null`
in the first and absent in the second. -/
structure Forgets (mask reloaded : DataMask) : Prop where
  restrictions : reloaded.restrictions = mask.restrictions
  label : reloaded.selection.label = mask.selection.label
  value : mask.selection.value ≠ some .null ∧ reloaded.selection.value = mask.selection.value ∨
    mask.selection.value = some .null ∧ reloaded.selection.value = none

theorem forgets_reloaded (mask : DataMask) : mask.Forgets mask.reloaded where
  restrictions := rfl
  label := rfl
  value := by
    rw [reloaded, Selection.reloaded]
    cases mask.selection.value with
    | none => exact .inl ⟨nofun, rfl⟩
    | some value =>
        cases value with
        | null => exact .inr ⟨rfl, rfl⟩
        | _ => exact .inl ⟨nofun, rfl⟩

end DataMask

namespace CrossFilterSources

theorem crossFilterOf_reloaded (sources : CrossFilterSources) (chart : ChartId) :
    { sources with masks := sources.masks.mapValues DataMask.reloaded }.crossFilterOf chart =
      sources.crossFilterOf chart := by
  simp only [crossFilterOf, SortedMap.get?_mapValues]
  cases sources.masks.get? chart with
  | none => rfl
  | some mask =>
      have hlabel : mask.reloaded.selection.label? = mask.selection.label? :=
        mask.selection.label?_reloaded
      have hvalue : mask.reloaded.selection.value.filter isTruthy =
          mask.selection.value.filter isTruthy :=
        filter_isTruthy_unlessNull mask.selection.value
      simp only [Option.map_some, Option.bind_eq_bind, Option.bind_some, hlabel, hvalue]
      rfl

theorem select_reloaded (sources : CrossFilterSources) :
    { sources with masks := sources.masks.mapValues DataMask.reloaded }.select = sources.select :=
  List.filterMap_congr fun chart _ => sources.crossFilterOf_reloaded chart

end CrossFilterSources

/-- The JSON value of stored masks can be decoded. All charts keep their masks but for explicit
`null`s, and the labels and the cross-filters made from them are the same, whatever else these are
made from. -/
theorem reloaded_masks (masks : DataMasks) :
    ∃ reloaded : DataMasks, ofJson? (toJson masks) = some reloaded ∧
      (∀ chart, Option.Rel DataMask.Forgets (masks.get? chart) (reloaded.get? chart)) ∧
      (∀ chart, (reloaded.get? chart).map (·.selection.label?) =
        (masks.get? chart).map (·.selection.label?)) ∧
      ∀ charts places columnNames,
        CrossFilterSources.select { masks := reloaded, charts, places, columnNames } =
          CrossFilterSources.select { masks, charts, places, columnNames } := by
  have hread := ofJson?_toJson_mapValues DataMask.ofJson?_toJson_eq masks
  refine ⟨_, hread, ?_, ?_, ?_⟩
  · intro chart
    rw [SortedMap.get?_mapValues]
    cases masks.get? chart with
    | none => exact .none
    | some mask => exact .some mask.forgets_reloaded
  · intro chart
    rw [SortedMap.get?_mapValues, Option.map_map]
    exact congrArg (Option.map · _) (funext fun mask => mask.selection.label?_reloaded)
  · intro charts places columnNames
    exact CrossFilterSources.select_reloaded { masks, charts, places, columnNames }

end DashboardFilters
