import DashboardFilters.Toml.Reading

/-!
What the lines of a TOML document say. With the header that it stands under, every line says as much
as a small document of its own (`Line.document`). A whole document has at each key what one of these
has there, in whatever order the lines come and however they spell their keys
(`at?_ofLines?_eq_some_iff`, `at?_ofLines?_eq_none_iff`).
-/

namespace DashboardFilters.Toml

/-- The value under a dotted key. No key leads into an array of tables. -/
def at? : List String → Toml → Option Toml
  | [], value => some value
  | key :: path, table _ entries => (lookupEntry key entries).bind (at? path)
  | _ :: _, _ => none

theorem at?_append (front back : List String) (value : Toml) :
    value.at? (front ++ back) = (value.at? front).bind (at? back) := by
  induction front generalizing value with
  | nil => rfl
  | cons key front ih =>
      cases value with
      | table origin entries =>
          rw [List.cons_append, at?, at?, Option.bind_assoc]
          exact congrArg _ (funext ih)
      | _ => rfl

/-- Other lines may put more into a table or into an array of tables, but nothing into a plain
value. -/
inductive Kind where
  | table
  | tables
  | plain (value : Toml)

def kind : Toml → Kind
  | table .. => .table
  | tables _ => .tables
  | value => .plain value

def IsPlain (value : Toml) : Prop :=
  value.kind = .plain value

def kindAt? (path : List String) (value : Toml) : Option Kind :=
  (value.at? path).map kind

theorem kind_eq_plain_iff {value plain : Toml} :
    value.kind = .plain plain ↔ value = plain ∧ plain.IsPlain := by
  constructor
  · intro h
    cases value with
    | table origin entries => cases h
    | tables elements => cases h
    | _ =>
        cases h
        exact ⟨rfl, rfl⟩
  · rintro ⟨rfl, h⟩
    exact h

theorem kindAt?_eq_plain_iff {path : List String} {value plain : Toml} :
    value.kindAt? path = some (.plain plain) ↔ value.at? path = some plain ∧ plain.IsPlain := by
  rw [kindAt?, Option.map_eq_some_iff]
  constructor
  · rintro ⟨found, hfound, hkind⟩
    obtain ⟨rfl, hplain⟩ := kind_eq_plain_iff.1 hkind
    exact ⟨hfound, hplain⟩
  · rintro ⟨hfound, hplain⟩
    exact ⟨plain, hfound, hplain⟩

theorem kindAt?_eq_none_iff {path : List String} {value : Toml} :
    value.kindAt? path = none ↔ value.at? path = none :=
  Option.map_eq_none_iff

@[simp] theorem kindAt?_nil (value : Toml) : value.kindAt? [] = some value.kind := rfl

@[simp] theorem kindAt?_table (origin : TableOrigin) (entries : Entries) (key : String)
    (path : List String) : (table origin entries).kindAt? (key :: path) =
      (lookupEntry key entries).bind (kindAt? path) :=
  Option.map_bind

def singleton : List String → Toml → Toml
  | [], value => value
  | key :: path, value => table .dotted [(key, singleton path value)]

theorem kindAt?_singleton_cons (key other : String) (path query : List String) (value : Toml) :
    (singleton (key :: path) value).kindAt? (other :: query) =
      if other = key then (singleton path value).kindAt? query else none := by
  rw [singleton, kindAt?_table, lookupEntry]
  by_cases h : other = key
  · simp [h]
  · simp [h, lookupEntry]

def Exposed (path : List String) (document : Toml) : Prop :=
  ∀ front back, path = front ++ back → back ≠ [] → document.kindAt? front ≠ some .tables

theorem Exposed.tail {key : String} {path : List String} {origin : TableOrigin} {entries : Entries}
    {child : Toml} (h : Exposed (key :: path) (table origin entries))
    (hchild : lookupEntry key entries = some child) : Exposed path child := by
  intro front back hpath hback htables
  refine h (key :: front) back (by rw [hpath, List.cons_append]) hback ?_
  rw [kindAt?_table, hchild]
  exact htables

/-- A value grows by what some documents say: what was there keeps its kind, nothing but what they
say is new, and what they say is there unless an array of tables has it. -/
structure Grows (before : Option Toml) (after : Toml) (said : List Toml) : Prop where
  keeps : ∀ {path kind}, before.bind (kindAt? path) = some kind → after.kindAt? path = some kind
  only : ∀ {path kind}, after.kindAt? path = some kind →
    before.bind (kindAt? path) = some kind ∨ ∃ document ∈ said, document.kindAt? path = some kind
  shows : ∀ {path kind document}, Exposed path after → document ∈ said →
    document.kindAt? path = some kind →
      after.kindAt? path = some kind ∨ kind = .table ∧ after.kindAt? path = some .tables

namespace Grows

theorem refl (value : Toml) : Grows (some value) value [] where
  keeps h := h
  only h := .inl h
  shows _ hsaid _ := nomatch hsaid

theorem new (value : Toml) : Grows none value [value] where
  keeps h := nomatch h
  only h := .inr ⟨value, List.mem_singleton_self value, h⟩
  shows _ hsaid h := by
    obtain rfl := List.mem_singleton.1 hsaid
    exact .inl h

variable {before : Option Toml} {middle after said : Toml} {earlier later : List Toml}

theorem trans (h : Grows before middle earlier) (h' : Grows (some middle) after later) :
    Grows before after (earlier ++ later) where
  keeps hbefore := h'.keeps (h.keeps hbefore)
  only hafter := by
    rcases h'.only hafter with hmiddle | ⟨document, hsaid, hdocument⟩
    · rcases h.only hmiddle with hbefore | ⟨document, hsaid, hdocument⟩
      · exact .inl hbefore
      · exact .inr ⟨document, List.mem_append_left later hsaid, hdocument⟩
    · exact .inr ⟨document, List.mem_append_right earlier hsaid, hdocument⟩
  shows hexposed hsaid hdocument := by
    rcases List.mem_append.1 hsaid with hsaid | hsaid
    · have hmiddle : Exposed _ middle := fun front back hpath hback htables =>
        hexposed front back hpath hback (h'.keeps htables)
      exact (h.shows hmiddle hsaid hdocument).imp h'.keeps fun htables =>
        ⟨htables.1, h'.keeps htables.2⟩
    · exact h'.shows hexposed hsaid hdocument

theorem underKey {key : String} {entries : Entries} {child : Toml} {path : List String}
    {value : Toml} (h : Grows (lookupEntry key entries) child [singleton path value])
    (origin : TableOrigin) :
    Grows (some (table origin entries)) (table origin (insertEntry key child entries))
      [singleton (key :: path) value] where
  keeps {query kind} hbefore := by
    rw [Option.bind_some] at hbefore
    cases query with
    | nil => exact hbefore
    | cons other query =>
        rw [kindAt?_table] at hbefore ⊢
        rw [lookupEntry_insertEntry]
        by_cases hkey : other = key
        · subst hkey
          rw [if_pos rfl, Option.bind_some]
          exact h.keeps hbefore
        · rw [if_neg hkey]
          exact hbefore
  only {query kind} hafter := by
    rw [Option.bind_some]
    cases query with
    | nil => exact .inl hafter
    | cons other query =>
        rw [kindAt?_table, lookupEntry_insertEntry] at hafter
        rw [kindAt?_table]
        by_cases hkey : other = key
        · subst hkey
          rw [if_pos rfl, Option.bind_some] at hafter
          refine (h.only hafter).imp id ?_
          rintro ⟨document, hsaid, hdocument⟩
          obtain rfl := List.mem_singleton.1 hsaid
          refine ⟨_, List.mem_singleton_self _, ?_⟩
          rw [kindAt?_singleton_cons, if_pos rfl]
          exact hdocument
        · rw [if_neg hkey] at hafter
          exact .inl hafter
  shows {query kind document} hexposed hsaid hdocument := by
    obtain rfl := List.mem_singleton.1 hsaid
    cases query with
    | nil => exact .inl hdocument
    | cons other query =>
        rw [kindAt?_singleton_cons] at hdocument
        by_cases hkey : other = key
        · subst hkey
          rw [if_pos rfl] at hdocument
          have hchild : lookupEntry other (insertEntry other child entries) =
              some child := by
            rw [lookupEntry_insertEntry, if_pos rfl]
          rw [kindAt?_table, hchild, Option.bind_some]
          exact h.shows (hexposed.tail hchild) (List.mem_singleton_self _) hdocument
        · rw [if_neg hkey] at hdocument
          cases hdocument

/-- A change of one value of a table, which may fail. -/
theorem of_bind {inner? : Option Entries} {wrap : Entries → Toml} {key : String}
    {entries entries' : Entries} {path : List String} {value : Toml}
    (h : (do return insertEntry key (wrap (← inner?)) entries) = some entries')
    (origin : TableOrigin)
    (hchild : ∀ inner, inner? = some inner →
      Grows (lookupEntry key entries) (wrap inner) [singleton path value]) :
    Grows (some (table origin entries)) (table origin entries')
      [singleton (key :: path) value] := by
  obtain ⟨inner, hinner, hentries⟩ := Option.bind_eq_some_iff.1 h
  cases hentries
  exact (hchild inner hinner).underKey origin

theorem of_empty {origin : TableOrigin} {entries : Entries} {key : String}
    {path : List String} {value : Toml}
    (h : Grows (some (table origin [])) (table origin entries) [singleton (key :: path) value]) :
    Grows none (table origin entries) [singleton (key :: path) value] where
  keeps hbefore := nomatch hbefore
  only {query kind} hafter := by
    cases query with
    | nil => exact .inr ⟨_, List.mem_singleton_self _, hafter⟩
    | cons other query => exact .inr ((h.only hafter).resolve_left nofun)
  shows {query kind document} hexposed hsaid hdocument := by
    cases query with
    | nil =>
        obtain rfl := List.mem_singleton.1 hsaid
        exact .inl hdocument
    | cons other query => exact h.shows hexposed hsaid hdocument

theorem of_same {before after said : Toml}
    (hsame : ∀ path, after.kindAt? path = before.kindAt? path)
    (hshows : ∀ {path kind}, Exposed path after → said.kindAt? path = some kind →
      after.kindAt? path = some kind ∨ kind = .table ∧ after.kindAt? path = some .tables) :
    Grows (some before) after [said] where
  keeps {path kind} hbefore := by
    rw [hsame path]
    exact hbefore
  only {path kind} hafter := by
    rw [hsame path] at hafter
    exact .inl hafter
  shows hexposed hsaid hdocument := by
    obtain rfl := List.mem_singleton.1 hsaid
    exact hshows hexposed hdocument

/-- A header that is repeated says nothing about what stands under it. -/
theorem reopened {before after said : Toml}
    (hsame : ∀ path, after.kindAt? path = before.kindAt? path) (hkind : said.kind = after.kind)
    (hempty : ∀ key path, said.kindAt? (key :: path) = none) :
    Grows (some before) after [said] := by
  apply of_same hsame
  intro path kind _ hsaid
  cases path with
  | nil =>
      rw [kindAt?_nil, hkind] at hsaid
      exact .inl hsaid
  | cons key path =>
      rw [hempty] at hsaid
      cases hsaid

/-- What is put into an element of an array of tables is not seen from outside. -/
theorem inElement (elements elements' : List Entries) (key : String) (path : List String)
    (value : Toml) :
    Grows (some (tables elements)) (tables elements') [singleton (key :: path) value] := by
  apply of_same
  · intro path
    cases path <;> rfl
  · intro query kind hexposed hkind
    cases query with
    | nil =>
        cases hkind
        exact .inr ⟨rfl, rfl⟩
    | cons other query => exact absurd rfl (hexposed [] (other :: query) rfl (List.cons_ne_nil _ _))

end Grows

theorem grows_put {key : String} {path : List String} {value : Toml} {entries entries' : Entries}
    (h : put key path value entries = some entries') (origin : TableOrigin) :
    Grows (some (table origin entries)) (table origin entries') [singleton (key :: path) value] := by
  induction path generalizing key entries entries' origin with
  | nil =>
      rw [put] at h
      split at h
      · rename_i hfresh
        cases h
        exact .underKey (hfresh ▸ .new value) origin
      · cases h
  | cons next rest ih =>
      rw [put] at h
      split at h
      · rename_i hfresh
        exact .of_bind h origin fun inner hinner => hfresh ▸ (ih hinner .dotted).of_empty
      · rename_i before hbefore
        exact .of_bind h origin fun inner hinner => hbefore ▸ ih hinner .dotted
      · rename_i before hbefore
        split at h
        · cases h
        · exact .of_bind h origin fun inner hinner => hbefore ▸ ih hinner .implied
      · rename_i elements hbefore
        split at h
        · split at h
          · cases h
          · exact .of_bind h origin fun inner _ => hbefore ▸ .inElement _ _ next rest value
        · cases h
      · cases h

/-- The change at the end of a path is the only one, and what it says is said under the path. -/
theorem grows_descend {f : Entries → Option Entries} {key : String} {path : List String}
    {value : Toml}
    (hf : ∀ {inner inner'}, f inner = some inner' → ∀ origin,
      Grows (some (table origin inner)) (table origin inner') [singleton (key :: path) value])
    {front : List String} {entries entries' : Entries}
    (h : descend front f entries = some entries') (origin : TableOrigin) :
    Grows (some (table origin entries)) (table origin entries')
      [singleton (front ++ key :: path) value] := by
  induction front generalizing entries entries' origin with
  | nil => exact hf h origin
  | cons next front ih =>
      -- What is said under the rest of the path is said within a table, so that it does not show
      -- where the path enters an array of tables.
      obtain ⟨first, rest, hrest⟩ := List.exists_cons_of_ne_nil
        (List.append_ne_nil_of_right_ne_nil front (List.cons_ne_nil key path))
      rw [hrest] at ih
      rw [List.cons_append, hrest]
      rw [descend] at h
      split at h
      · rename_i hfresh
        exact .of_bind h origin fun inner hinner => hfresh ▸ (ih hinner .implied).of_empty
      · cases h
      · rename_i origin' before _ hbefore
        exact .of_bind h origin fun inner hinner => hbefore ▸ ih hinner origin'
      · rename_i elements hbefore
        split at h
        · exact .of_bind h origin fun inner _ => hbefore ▸ .inElement _ _ first rest value
        · cases h
      · cases h

theorem grows_openTable {key : String} {entries entries' : Entries}
    (h : openTable key entries = some entries') (origin : TableOrigin) :
    Grows (some (table origin entries)) (table origin entries')
      [singleton [key] (table .header [])] := by
  rw [openTable] at h
  split at h
  · rename_i hfresh
    cases h
    have hnew : Grows (lookupEntry key entries) _ [singleton [] (table .header [])] :=
      hfresh ▸ Grows.new _
    exact hnew.underKey origin
  · rename_i inner hbefore
    cases h
    have hopened : Grows (lookupEntry key entries) (table .header inner)
        [singleton [] (table .header [])] :=
      hbefore ▸ .reopened (fun path => by cases path <;> rfl) rfl fun _ _ => rfl
    exact hopened.underKey origin
  · cases h

theorem grows_openElement {key : String} {entries entries' : Entries}
    (h : openElement key entries = some entries') (origin : TableOrigin) :
    Grows (some (table origin entries)) (table origin entries')
      [singleton [key] (tables [[]])] := by
  rw [openElement] at h
  split at h
  · rename_i hfresh
    cases h
    have hnew : Grows (lookupEntry key entries) _ [singleton [] (tables [[]])] :=
      hfresh ▸ Grows.new _
    exact hnew.underKey origin
  · rename_i elements hbefore
    cases h
    have hlonger : Grows (lookupEntry key entries) (tables (elements ++ [[]]))
        [singleton [] (tables [[]])] :=
      hbefore ▸ .reopened (fun path => by cases path <;> rfl) rfl fun _ _ => rfl
    exact hlonger.underKey origin
  · cases h

namespace Line

def document (current : List String) : Line → Toml
  | table path key => singleton (path ++ [key]) (.table .header [])
  | element path key => singleton (path ++ [key]) (.tables [[]])
  | pair key path value => singleton (current ++ key :: path) value

def next (current : List String) : Line → List String
  | table path key => path ++ [key]
  | element path key => path ++ [key]
  | pair _ _ _ => current

def documents (current : List String) : List Line → List Toml
  | [] => []
  | line :: lines => line.document current :: documents (line.next current) lines

def said (lines : List Line) (path : List String) : List Toml :=
  (documents [] lines).filterMap (at? path)

theorem mem_said_iff {lines : List Line} {path : List String} {value : Toml} :
    value ∈ said lines path ↔ ∃ document ∈ documents [] lines, document.at? path = some value :=
  List.mem_filterMap

end Line

theorem Draft.current_apply {draft draft' : Draft} {line : Line}
    (h : draft.apply line = some draft') : draft'.current = line.next draft.current := by
  cases line with
  | _ =>
      obtain ⟨root, -, rfl⟩ := Option.map_eq_some_iff.1 h
      rfl

theorem Draft.grows_apply {draft draft' : Draft} {line : Line}
    (h : draft.apply line = some draft') (origin : TableOrigin) :
    Grows (some (table origin draft.root)) (table origin draft'.root)
      [line.document draft.current] := by
  cases line with
  | table path key =>
      obtain ⟨root, hroot, rfl⟩ := Option.map_eq_some_iff.1 h
      exact grows_descend grows_openTable hroot origin
  | element path key =>
      obtain ⟨root, hroot, rfl⟩ := Option.map_eq_some_iff.1 h
      exact grows_descend grows_openElement hroot origin
  | pair key path value =>
      obtain ⟨root, hroot, rfl⟩ := Option.map_eq_some_iff.1 h
      exact grows_descend grows_put hroot origin

theorem Draft.grows_run {draft draft' : Draft} {lines : List Line}
    (h : lines.foldlM Draft.apply draft = some draft') (origin : TableOrigin) :
    Grows (some (table origin draft.root)) (table origin draft'.root)
      (Line.documents draft.current lines) := by
  induction lines generalizing draft with
  | nil =>
      cases h
      exact .refl _
  | cons line lines ih =>
      rw [List.foldlM_cons] at h
      obtain ⟨middle, hfirst, hrest⟩ := Option.bind_eq_some_iff.1 h
      have hlater := ih hrest
      rw [Draft.current_apply hfirst] at hlater
      exact (Draft.grows_apply hfirst origin).trans hlater

def lines? (text : String) : Option (List Line) :=
  let cs := skipMark text.toList
  readLines? [] (cs.length + 1) cs

theorem read?_eq (text : String) : read? text = (lines? text).bind ofLines? := rfl

variable {lines : List Line} {document : Toml}

theorem kind_ofLines? (h : ofLines? lines = some document) : document.kind = .table := by
  obtain ⟨draft, -, rfl⟩ := Option.map_eq_some_iff.1 h
  rfl

theorem grows_ofLines? (h : ofLines? lines = some document) :
    Grows (some (table .header [])) document (Line.documents [] lines) := by
  obtain ⟨draft, hdraft, rfl⟩ := Option.map_eq_some_iff.1 h
  exact Draft.grows_run hdraft .header

variable {key : String} {path : List String}

theorem at?_ofLines?_eq_some_iff (h : ofLines? lines = some document)
    (hexposed : Exposed (key :: path) document) {value : Toml} (hplain : value.IsPlain) :
    document.at? (key :: path) = some value ↔ value ∈ Line.said lines (key :: path) := by
  have hgrows := grows_ofLines? h
  rw [Line.mem_said_iff]
  constructor
  · intro hvalue
    have hafter := kindAt?_eq_plain_iff.2 ⟨hvalue, hplain⟩
    obtain ⟨said, hsaid, hkind⟩ := (hgrows.only hafter).resolve_left nofun
    exact ⟨said, hsaid, (kindAt?_eq_plain_iff.1 hkind).1⟩
  · rintro ⟨said, hsaid, hvalue⟩
    have hkind := kindAt?_eq_plain_iff.2 ⟨hvalue, hplain⟩
    have hafter := (hgrows.shows hexposed hsaid hkind).resolve_right nofun
    exact (kindAt?_eq_plain_iff.1 hafter).1

theorem at?_ofLines?_eq_none_iff (h : ofLines? lines = some document)
    (hexposed : Exposed (key :: path) document) :
    document.at? (key :: path) = none ↔ Line.said lines (key :: path) = [] := by
  have hgrows := grows_ofLines? h
  rw [Line.said, List.filterMap_eq_nil_iff]
  simp only [← kindAt?_eq_none_iff]
  constructor
  · intro hnone said hsaid
    cases hkind : said.kindAt? (key :: path) with
    | none => rfl
    | some kind =>
        have hafter := hgrows.shows hexposed hsaid hkind
        simp [hnone] at hafter
  · intro hnone
    cases hkind : document.kindAt? (key :: path) with
    | none => rfl
    | some kind =>
        obtain ⟨said, hsaid, hsome⟩ := (hgrows.only hkind).resolve_left nofun
        simp [hnone said hsaid] at hsome

end DashboardFilters.Toml
