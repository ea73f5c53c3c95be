import DashboardFilters.Proofs.DocumentLines
import DashboardFilters.Settings
import Mathlib

/-!
Settings from a file that names some of them. Each setting is looked up under a key of its own
(`Setting.path`) and is its default if nothing is there. One value of a wrong type spoils the file,
and what stands under other keys does not count.
-/

namespace DashboardFilters

open Json

namespace Toml

def text? : Toml → Option String
  | string s => some s
  | _ => none

/-- A length may be written with or without a fraction. -/
def length? : Toml → Option Binary32
  | integer i => some (.ofInt .binary32 i)
  | float d => some (d.convert .binary32)
  | _ => none

theorem defaulting_text? (default : String) (value? : Option Toml) :
    defaulting default (value?.map toJson) = value?.elim (some default) text? := by
  cases value? with
  | none => rfl
  | some value => cases value <;> rfl

theorem defaulting_length? (default : Binary32) (value? : Option Toml) :
    defaulting default (value?.map toJson) = value?.elim (some default) length? := by
  cases value? with
  | none => rfl
  | some value => cases value <;> rfl

theorem entriesToJson_eq_map (entries : Entries) :
    entriesToJson entries = entries.map fun e => (e.1, e.2.toJson) := by
  induction entries with
  | nil => rfl
  | cons entry entries ih => rw [entriesToJson, ih, List.map_cons]

theorem record?_toJson {document : Toml} (h : document.kind = .table) (names : List String) :
    document.toJson.record? names =
      some (names.map fun name => (document.at? [name]).map toJson) := by
  cases document with
  | table origin entries =>
      rw [toJson, record?, entriesToJson_eq_map]
      refine congrArg some (List.map_congr_left fun name _ => ?_)
      rw [lookupEntry_map, at?]
      cases lookupEntry name entries <;> rfl
  | _ => cases h

instance (value : Toml) : Decidable (value.kind = .table) :=
  match value with
  | table .. => .isTrue rfl
  | string _ | integer _ | float _ | boolean _ | dateTime | array _ | tables _ => .isFalse nofun

/-- The sections of a document, where it has them, are tables. -/
def IsSectioned (document : Toml) : Prop :=
  ∀ name ∈ ["labels", "row"], ∀ value ∈ document.at? [name], value.kind = .table

instance (document : Toml) : Decidable document.IsSectioned :=
  inferInstanceAs (Decidable (∀ name ∈ ["labels", "row"], ∀ value ∈ document.at? [name],
    value.kind = .table))

def sectionOf (name : String) (document : Toml) : Toml :=
  (document.at? [name]).getD (table .implied [])

theorem at?_sectionOf (name key : String) (document : Toml) :
    (document.sectionOf name).at? [key] = document.at? [name, key] := by
  have hpath := at?_append [name] [key] document
  rw [List.singleton_append] at hpath
  rw [hpath, sectionOf]
  cases document.at? [name] <;> rfl

theorem defaulting_sectionOf {α : Type} [OfJson α] (default : α)
    (hempty : ofJson? (table .implied []).toJson = some default) (name : String)
    (document : Toml) : defaulting default ((document.at? [name]).map toJson) =
      ofJson? (document.sectionOf name).toJson := by
  rw [sectionOf]
  cases document.at? [name] with
  | none => exact hempty.symm
  | some value => rfl

theorem IsSectioned.kind_sectionOf {document : Toml} (h : document.IsSectioned) {name : String}
    (hname : name ∈ ["labels", "row"]) : (document.sectionOf name).kind = .table := by
  have hvalue := h name hname
  rw [sectionOf]
  cases hat : document.at? [name] with
  | none => rfl
  | some value => exact hvalue value hat

theorem IsSectioned.exposed {document : Toml} (h : document.IsSectioned)
    (hroot : document.kind = .table) {name : String} (hname : name ∈ ["labels", "row"])
    (key : String) : Exposed [name, key] document := by
  intro front back hpath hback htables
  match front, hpath with
  | [], _ =>
      rw [kindAt?_nil, hroot] at htables
      cases htables
  | [_], rfl =>
      obtain ⟨value, hvalue, hkind⟩ := Option.map_eq_some_iff.1 htables
      rw [h _ hname value hvalue] at hkind
      cases hkind
  | [_, _], hpath =>
      simp only [List.cons_append, List.cons.injEq] at hpath
      exact hback hpath.2.2.symm
  | _ :: _ :: _ :: _, hpath => simp at hpath

theorem ofJson?_settings_iff {document : Toml} (hroot : document.kind = .table)
    {settings : Settings} : ofJson? document.toJson = some settings ↔
      ofJson? (document.sectionOf "labels").toJson = some settings.labels ∧
      ofJson? (document.sectionOf "row").toJson = some settings.row := by
  have hlabels := defaulting_sectionOf ({} : TriggerLabels) rfl "labels" document
  have hrow := defaulting_sectionOf ({} : RowMetrics) rfl "row" document
  rw [← hlabels, ← hrow]
  simp only [ofJson?, record?_toJson hroot, List.map, Option.bind_eq_bind, Option.bind_some,
    Option.bind_eq_some_iff, Option.pure_def, Option.some.injEq]
  constructor
  · rintro ⟨labels, hlabels, row, hrow, rfl⟩
    exact ⟨hlabels, hrow⟩
  · rintro ⟨hlabels, hrow⟩
    exact ⟨_, hlabels, _, hrow, rfl⟩

end Toml

inductive Setting where
  | trigger
  | noneApplied
  | applied
  | spacing
  | padding
  | triggerWidth

namespace Setting

def path : Setting → List String
  | trigger => ["labels", "trigger_text"]
  | noneApplied => ["labels", "no_applied_filters"]
  | applied => ["labels", "applied_filters_prefix"]
  | spacing => ["row", "spacing"]
  | padding => ["row", "padding"]
  | triggerWidth => ["row", "trigger_width"]

abbrev Value : Setting → Type
  | trigger | noneApplied | applied => String
  | spacing | padding | triggerWidth => Binary32

def get (settings : Settings) : (setting : Setting) → setting.Value
  | trigger => settings.labels.trigger
  | noneApplied => settings.labels.noneApplied
  | applied => settings.labels.applied
  | spacing => settings.row.spacing
  | padding => settings.row.padding
  | triggerWidth => settings.row.triggerWidth

def ofToml? : (setting : Setting) → Toml → Option setting.Value
  | trigger | noneApplied | applied => Toml.text?
  | spacing | padding | triggerWidth => Toml.length?

def Admits : Setting → Toml → Prop
  | trigger, value | noneApplied, value | applied, value => ∃ s, value = .string s
  | spacing, value | padding, value | triggerWidth, value =>
      (∃ i, value = .integer i) ∨ ∃ d, value = .float d

theorem isSome_ofToml?_iff {setting : Setting} {value : Toml} :
    (setting.ofToml? value).isSome = true ↔ setting.Admits value := by
  cases setting <;> cases value <;> simp [Admits, ofToml?, Toml.text?, Toml.length?]

theorem ofToml?_of_not_isPlain (setting : Setting) {value : Toml} (h : ¬ value.IsPlain) :
    setting.ofToml? value = none := by
  cases value with
  | table origin entries => cases setting <;> rfl
  | tables elements => cases setting <;> rfl
  | _ => exact absurd rfl h

def taken? (setting : Setting) (value? : Option Toml) : Option setting.Value :=
  value?.elim (some (setting.get {})) setting.ofToml?

theorem isSome_taken?_iff {setting : Setting} {value? : Option Toml} :
    (setting.taken? value?).isSome = true ↔ ∀ value, value? = some value → setting.Admits value := by
  cases value? with
  | none => simp [taken?]
  | some value => simp [taken?, isSome_ofToml?_iff]

theorem taken?_eq_some_iff {setting : Setting} {value? : Option Toml} {x : setting.Value} :
    setting.taken? value? = some x ↔ (value? = none → x = setting.get {}) ∧
      ∀ value, value? = some value → setting.ofToml? value = some x := by
  cases value? with
  | none => simp [taken?, eq_comm]
  | some value => simp [taken?]

/-- Of all that is not plain, it does not matter what it is. -/
theorem taken?_congr (setting : Setting) {value? other? : Option Toml}
    (hnone : value? = none ↔ other? = none)
    (hplain : ∀ value, value.IsPlain → (value? = some value ↔ other? = some value)) :
    setting.taken? value? = setting.taken? other? := by
  cases value? with
  | none => rw [hnone.1 rfl]
  | some value =>
      cases other? with
      | none => cases hnone.2 rfl
      | some other =>
          by_cases hvalue : value.IsPlain
          · rw [(hplain value hvalue).1 rfl]
          · have hother : ¬ other.IsPlain := fun hother => by
              cases (hplain other hother).2 rfl
              exact hvalue hother
            exact (setting.ofToml?_of_not_isPlain hvalue).trans
              (setting.ofToml?_of_not_isPlain hother).symm

theorem exists_path_eq (setting : Setting) :
    ∃ name ∈ ["labels", "row"], ∃ key, setting.path = [name, key] := by
  cases setting <;> exact ⟨_, by decide, _, rfl⟩

def assemble (values : (setting : Setting) → setting.Value) : Settings :=
  { labels := {
      trigger := values trigger
      noneApplied := values noneApplied
      applied := values applied }
    row := {
      spacing := values spacing
      padding := values padding
      triggerWidth := values triggerWidth } }

theorem get_assemble (values : (setting : Setting) → setting.Value) (setting : Setting) :
    setting.get (assemble values) = values setting := by
  cases setting <;> rfl

end Setting

namespace Settings

variable {document : Toml} {settings : Settings} {text : String}

theorem ofToml?_eq_some_iff (hroot : document.kind = .table) (hsections : document.IsSectioned) :
    ofToml? document = some settings ↔ ∀ setting : Setting,
      setting.taken? (document.at? setting.path) = some (setting.get settings) := by
  have hlabels := Toml.record?_toJson (hsections.kind_sectionOf (by decide : "labels" ∈ _))
  have hrow := Toml.record?_toJson (hsections.kind_sectionOf (by decide : "row" ∈ _))
  rw [ofToml?, Toml.ofJson?_settings_iff hroot]
  simp only [ofJson?, hlabels, hrow, List.map, Toml.at?_sectionOf, Option.bind_eq_bind,
    Option.bind_some, Toml.defaulting_text?, Toml.defaulting_length?, Option.bind_eq_some_iff,
    Option.pure_def, Option.some.injEq]
  constructor
  · obtain ⟨labels, row⟩ := settings
    rintro ⟨⟨trigger, htrigger, noneApplied, hnoneApplied, applied, happlied, rfl⟩,
      spacing, hspacing, padding, hpadding, triggerWidth, htriggerWidth, rfl⟩ setting
    cases setting with
    | trigger => exact htrigger
    | noneApplied => exact hnoneApplied
    | applied => exact happlied
    | spacing => exact hspacing
    | padding => exact hpadding
    | triggerWidth => exact htriggerWidth
  · intro h
    exact ⟨⟨_, h .trigger, _, h .noneApplied, _, h .applied, rfl⟩,
      _, h .spacing, _, h .padding, _, h .triggerWidth, rfl⟩

theorem isSome_ofToml?_iff (hroot : document.kind = .table) (hsections : document.IsSectioned) :
    (ofToml? document).isSome = true ↔ ∀ (setting : Setting) (value : Toml),
      document.at? setting.path = some value → setting.Admits value := by
  simp only [← Setting.isSome_taken?_iff]
  constructor
  · intro hsome setting
    obtain ⟨settings, hsettings⟩ := Option.isSome_iff_exists.1 hsome
    rw [(ofToml?_eq_some_iff hroot hsections).1 hsettings setting]
    rfl
  · intro hsome
    have hsettings : ofToml? document =
        some (Setting.assemble fun setting => (setting.taken? _).get (hsome setting)) := by
      rw [ofToml?_eq_some_iff hroot hsections]
      intro setting
      rw [Setting.get_assemble, Option.some_get]
    rw [hsettings]
    rfl

theorem ofToml?_congr {other : Toml} (hroot : document.kind = .table)
    (hsections : document.IsSectioned) (hroot' : other.kind = .table)
    (hsections' : other.IsSectioned)
    (h : ∀ setting : Setting, setting.taken? (document.at? setting.path) =
      setting.taken? (other.at? setting.path)) : ofToml? document = ofToml? other := by
  apply Option.ext
  intro settings
  rw [ofToml?_eq_some_iff hroot hsections, ofToml?_eq_some_iff hroot' hsections']
  simp only [h]

theorem read_eq_ok_iff (h : Toml.read? text = some document) :
    read text = .ok settings ↔ ofToml? document = some settings := by
  rw [read, h, Option.bind_some]
  cases ofToml? document <;> simp

theorem read_eq_invalid_iff (h : Toml.read? text = some document) :
    read text = .error .invalid ↔ ofToml? document = none := by
  rw [read, h, Option.bind_some]
  cases ofToml? document <;> simp

end Settings

namespace Toml.IsSectioned

variable {document other : Toml} {lines others : List Toml.Line}

theorem at?_path (h : document.IsSectioned) (hlines : ofLines? lines = some document)
    (setting : Setting) :
    (document.at? setting.path = none ↔ Line.said lines setting.path = []) ∧
      ∀ value, value.IsPlain →
        (document.at? setting.path = some value ↔ value ∈ Line.said lines setting.path) := by
  obtain ⟨name, hname, key, hpath⟩ := setting.exists_path_eq
  have hexposed := h.exposed (kind_ofLines? hlines) hname key
  rw [hpath]
  exact ⟨at?_ofLines?_eq_none_iff hlines hexposed,
    fun value hplain => at?_ofLines?_eq_some_iff hlines hexposed hplain⟩

theorem taken?_congr (h : document.IsSectioned) (hlines : ofLines? lines = some document)
    (h' : other.IsSectioned) (hothers : ofLines? others = some other) {setting : Setting}
    (hsaid : ∀ value, value ∈ Line.said lines setting.path ↔
      value ∈ Line.said others setting.path) :
    setting.taken? (document.at? setting.path) = setting.taken? (other.at? setting.path) := by
  obtain ⟨hnone, hplain⟩ := h.at?_path hlines setting
  obtain ⟨hnone', hplain'⟩ := h'.at?_path hothers setting
  apply setting.taken?_congr
  · rw [hnone, hnone', List.eq_nil_iff_forall_not_mem, List.eq_nil_iff_forall_not_mem]
    exact forall_congr' fun value => not_congr (hsaid value)
  · intro value hvalue
    rw [hplain value hvalue, hplain' value hvalue]
    exact hsaid value

end Toml.IsSectioned

/-- A file whose sections are tables can be read exactly if every setting that it names has a value
of its type. Each setting then is what the file gives for it, or else its default, and a single
wrong type spoils the file. What the file gives is what its lines say of the six keys, in any order
and spelling; nothing else in it counts. -/
theorem partial_settings {text : String} {document : Toml}
    (hread : Toml.read? text = some document) (hsections : document.IsSectioned) :
    ((∃ settings, Settings.read text = .ok settings) ↔ ∀ (setting : Setting) (value : Toml),
      document.at? setting.path = some value → setting.Admits value) ∧
    (∀ settings, Settings.read text = .ok settings → ∀ setting : Setting,
      (document.at? setting.path = none → setting.get settings = setting.get {}) ∧
      ∀ value, document.at? setting.path = some value →
        setting.ofToml? value = some (setting.get settings)) ∧
    (∀ (setting : Setting) (value : Toml), document.at? setting.path = some value →
      ¬ setting.Admits value → Settings.read text = .error .invalid) ∧
    ∃ lines, Toml.lines? text = some lines ∧
      (∀ setting : Setting,
        (document.at? setting.path = none ↔ Toml.Line.said lines setting.path = []) ∧
        ∀ value, value.IsPlain →
          (document.at? setting.path = some value ↔ value ∈ Toml.Line.said lines setting.path)) ∧
      ∀ other others otherDocument, Toml.lines? other = some others →
        Toml.read? other = some otherDocument → otherDocument.IsSectioned →
        (∀ (setting : Setting) (value : Toml), value ∈ Toml.Line.said lines setting.path ↔
          value ∈ Toml.Line.said others setting.path) →
        Settings.read other = Settings.read text := by
  obtain ⟨lines, hlines, hdocument⟩ := Option.bind_eq_some_iff.1 hread
  have hroot := Toml.kind_ofLines? hdocument
  have hsome := Settings.isSome_ofToml?_iff hroot hsections
  refine ⟨?_, ?_, ?_, lines, hlines, hsections.at?_path hdocument, ?_⟩
  · simp only [Settings.read_eq_ok_iff hread, ← Option.isSome_iff_exists]
    exact hsome
  · intro settings hok setting
    have hsettings := (Settings.read_eq_ok_iff hread).1 hok
    exact Setting.taken?_eq_some_iff.1 ((Settings.ofToml?_eq_some_iff hroot hsections).1 hsettings
      setting)
  · intro setting value hvalue hwrong
    rw [Settings.read_eq_invalid_iff hread, ← Option.not_isSome_iff_eq_none, hsome]
    intro hadmits
    exact hwrong (hadmits setting value hvalue)
  · intro other others otherDocument hothers hread' hsections' hsaid
    have hdocument' : Toml.ofLines? others = some otherDocument := by
      rw [Toml.read?_eq, hothers] at hread'
      exact hread'
    have hsame : Settings.ofToml? otherDocument = Settings.ofToml? document := by
      apply Settings.ofToml?_congr (Toml.kind_ofLines? hdocument') hsections' hroot hsections
      intro setting
      exact hsections'.taken?_congr hdocument' hsections hdocument
        fun value => (hsaid setting value).symm
    rw [Settings.read, hread', Option.bind_some, hsame, Settings.read, hread, Option.bind_some]

/-- Two files spell the same settings differently, the second with a key that is none of them. A
third gives a text for a length. -/
theorem partial_settings_of_two_spellings :
    let text := "row.padding = 4\n[labels]\ntrigger_text = \"Mehr\"\n"
    let other := "labels = \x7b'trigger_text' = 'Mehr', x = 1\x7d\n[row]\npadding = +4"
    let wrong := "[row]\npadding = 4\nspacing = \"wide\"\n"
    let document : Toml := .table .header [
      ("labels", .table .header [("trigger_text", .string "Mehr")]),
      ("row", .table .dotted [("padding", .integer 4)])]
    let wrongDocument : Toml := .table .header [
      ("row", .table .header [("padding", .integer 4), ("spacing", .string "wide")])]
    Toml.read? text = some document ∧ document.IsSectioned ∧
      (∃ settings, Settings.read text = .ok settings ∧ settings.labels.trigger = "Mehr" ∧
        settings.row.padding = .ofInt .binary32 4 ∧ settings.row.spacing = 8) ∧
      Settings.read other = Settings.read text ∧
      Toml.read? wrong = some wrongDocument ∧ wrongDocument.IsSectioned ∧
      Settings.read wrong = .error .invalid := by
  intro text other wrong document wrongDocument
  have hlines : Toml.lines? text = some [.pair "row" ["padding"] (.integer 4),
      .table [] "labels", .pair "trigger_text" [] (.string "Mehr")] := by
    simp only [text]
    cbv
  have hothers : Toml.lines? other = some [
      .pair "labels" [] (.table .inline [("trigger_text", .string "Mehr"), ("x", .integer 1)]),
      .table [] "row", .pair "padding" [] (.integer 4)] := by
    simp only [other]
    cbv
  have hwrongLines : Toml.lines? wrong = some [.table [] "row", .pair "padding" [] (.integer 4),
      .pair "spacing" [] (.string "wide")] := by
    simp only [wrong]
    cbv
  have hread : Toml.read? text = some document := by
    rw [Toml.read?_eq, hlines]
    simp only [document]
    cbv
  have hother : Toml.read? other = some (.table .header [
      ("labels", .table .inline [("trigger_text", .string "Mehr"), ("x", .integer 1)]),
      ("row", .table .header [("padding", .integer 4)])]) := by
    rw [Toml.read?_eq, hothers]
    cbv
  have hwrong : Toml.read? wrong = some wrongDocument := by
    rw [Toml.read?_eq, hwrongLines]
    simp only [wrongDocument]
    cbv
  have hsections : document.IsSectioned := by decide +kernel
  have hwrongSections : wrongDocument.IsSectioned := by decide +kernel
  obtain ⟨hsuccess, hvalues, -, lines, hlines', -, hsame⟩ := partial_settings hread hsections
  obtain ⟨-, -, hfails, -⟩ := partial_settings hwrong hwrongSections
  obtain rfl := Option.some.inj (hlines'.symm.trans hlines)
  refine ⟨hread, hsections, ?_, ?_, hwrong, hwrongSections, ?_⟩
  · obtain ⟨settings, hok⟩ := hsuccess.2 fun setting =>
      Setting.isSome_taken?_iff.1 (by cases setting <;> decide +kernel)
    have hvalue : document.at? (Setting.path .trigger) = some (.string "Mehr") ∧
        document.at? (Setting.path .padding) = some (.integer 4) ∧
        document.at? (Setting.path .spacing) = none := by
      simp only [document]
      exact ⟨by cbv, by cbv, by cbv⟩
    have htrigger := (hvalues settings hok .trigger).2 _ hvalue.1
    have hpadding := (hvalues settings hok .padding).2 _ hvalue.2.1
    have hspacing := (hvalues settings hok .spacing).1 hvalue.2.2
    exact ⟨settings, hok, (Option.some.inj htrigger).symm, (Option.some.inj hpadding).symm, hspacing⟩
  · apply hsame other _ _ hothers hother (by decide +kernel)
    intro setting value
    refine iff_of_eq (congrArg (value ∈ ·) ?_)
    cases setting <;> cbv
  · have hvalue : wrongDocument.at? (Setting.path .spacing) = some (.string "wide") := by
      simp only [wrongDocument]
      cbv
    apply hfails .spacing (.string "wide") hvalue
    rintro (⟨i, h⟩ | ⟨d, h⟩) <;> cases h

end DashboardFilters
