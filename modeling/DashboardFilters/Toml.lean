import DashboardFilters.Json

/-!
TOML values and the growth of tables. Tables keep their keys in order. How a table came about
decides what may still be added to it (`Toml.put`, `Toml.openTable`, `Toml.openElement`).
-/

namespace DashboardFilters

/-- How a table came about: written out in braces, opened by its own header, implied by the header
of a table below it, or by a dotted key. -/
inductive TableOrigin where
  | inline
  | header
  | implied
  | dotted
deriving DecidableEq

inductive Toml where
  | string (s : String)
  | integer (i : Int)
  | float (d : Binary64)
  | boolean (b : Bool)
  | dateTime
  | array (items : List Toml)
  | table (origin : TableOrigin) (entries : List (String × Toml))
  | tables (elements : List (List (String × Toml)))
deriving Inhabited

namespace Toml

abbrev Entries := List (String × Toml)

/-- Adds a value under a dotted key, `key` and then `path`. The tables on the way must be new or
have room for dotted keys: a table of its own header has not, and one that a header implied can be
passed but takes no value itself. -/
def put (key : String) (path : List String) (value : Toml) (entries : Entries) : Option Entries :=
  match path with
  | [] =>
      match lookupEntry key entries with
      | none => some (insertEntry key value entries)
      | some _ => none
  | next :: rest =>
      match lookupEntry key entries with
      | none => do
          let inner ← put next rest value []
          return insertEntry key (table .dotted inner) entries
      | some (table .dotted inner) => do
          let inner ← put next rest value inner
          return insertEntry key (table .dotted inner) entries
      | some (table .implied inner) =>
          if rest.isEmpty then none
          else do
            let inner ← put next rest value inner
            return insertEntry key (table .implied inner) entries
      | some (tables elements) =>
          match elements.getLast? with
          | some last =>
              if rest.isEmpty then none
              else do
                let last ← put next rest value last
                return insertEntry key (tables (elements.dropLast ++ [last])) entries
          | none => none
      | some _ => none

/-- Changes the table that the headers' path leads to, through the last element of an array of
tables. Tables missing on the way are implied. -/
def descend (path : List String) (f : Entries → Option Entries) (entries : Entries) :
    Option Entries :=
  match path with
  | [] => f entries
  | key :: rest =>
      match lookupEntry key entries with
      | none => do
          let inner ← descend rest f []
          return insertEntry key (table .implied inner) entries
      | some (table .inline _) => none
      | some (table origin inner) => do
          let inner ← descend rest f inner
          return insertEntry key (table origin inner) entries
      | some (tables elements) =>
          match elements.getLast? with
          | some last => do
              let last ← descend rest f last
              return insertEntry key (tables (elements.dropLast ++ [last])) entries
          | none => none
      | some _ => none

/-- Opens a table by its header. Only a table that was merely implied may be there already. -/
def openTable (key : String) (entries : Entries) : Option Entries :=
  match lookupEntry key entries with
  | none => some (insertEntry key (table .header []) entries)
  | some (table .implied inner) => some (insertEntry key (table .header inner) entries)
  | some _ => none

def openElement (key : String) (entries : Entries) : Option Entries :=
  match lookupEntry key entries with
  | none => some (insertEntry key (tables [[]]) entries)
  | some (tables elements) => some (insertEntry key (tables (elements ++ [[]])) entries)
  | some _ => none

mutual

/-- The data of a value. A date and time reads as a record without any known field. -/
def toJson : Toml → Json
  | string s => .string s
  | integer i => .integer i
  | float d => .double d
  | boolean b => .bool b
  | dateTime => .object []
  | array items => .array (itemsToJson items)
  | table _ entries => .object (entriesToJson entries)
  | tables elements => .array (elementsToJson elements)

def itemsToJson : List Toml → List Json
  | [] => []
  | item :: items => item.toJson :: itemsToJson items

def entriesToJson : List (String × Toml) → List (String × Json)
  | [] => []
  | (key, value) :: entries => (key, value.toJson) :: entriesToJson entries

def elementsToJson : List (List (String × Toml)) → List Json
  | [] => []
  | entries :: elements => .object (entriesToJson entries) :: elementsToJson elements

end

end Toml

end DashboardFilters
