import DashboardFilters.Toml.Numeral
import DashboardFilters.Toml.Text

/-!
Reading TOML documents. The lines of a document open tables and put values under keys; the result is
the table at the root.
-/

namespace DashboardFilters.Toml

/-- Values in brackets and braces nest, and keys have parts, at most this deep. -/
def maxDepth : Nat := 79

def isBareKeyChar (c : Char) : Bool :=
  c.isAlphanum || c == '_' || c == '-'

def readKeyPart? : List Char → Option (String × List Char)
  | '"' :: rest => readBasic? [] rest
  | '\'' :: rest => readLiteral? rest
  | cs =>
      match cs.span isBareKeyChar with
      | ([], _) => none
      | (part, rest) => some (String.ofList part, rest)

def readKeyParts? : Nat → List Char → Option (List String × List Char)
  | 0, _ => none
  | fuel + 1, cs => do
      let (part, rest) ← readKeyPart? (skipBlanks cs)
      match skipBlanks rest with
      | '.' :: rest => do
          let (parts, rest) ← readKeyParts? fuel rest
          return (part :: parts, rest)
      | rest => return ([part], rest)

def readKey? (cs : List Char) : Option (List String × List Char) :=
  readKeyParts? maxDepth cs

mutual

def readValue? : Nat → (depth : Nat) → List Char → Option (Toml × List Char)
  | 0, _, _ => none
  | fuel + 1, depth, cs =>
      match cs with
      | '[' :: rest => if depth = 0 then none else readItems? fuel (depth - 1) [] rest
      | '\x7b' :: rest =>
          if depth = 0 then none
          else
            match skipBlanks rest with
            | '\x7d' :: rest => some (table .inline [], rest)
            | rest => readPairs? fuel (depth - 1) [] rest
      | 't' :: 'r' :: 'u' :: 'e' :: rest => some (boolean true, rest)
      | 'f' :: 'a' :: 'l' :: 's' :: 'e' :: rest => some (boolean false, rest)
      | cs =>
          match readString? cs with
          | some (s, rest) => some (string s, rest)
          | none => readNumeral? cs

/-- Reads the items of an array; `done` holds those before, the last first. A comma may stand after
the last item. -/
def readItems? : Nat → (depth : Nat) → List Toml → List Char → Option (Toml × List Char)
  | 0, _, _, _ => none
  | fuel + 1, depth, done, cs =>
      match skipLines? (cs.length + 1) cs with
      | some (']' :: rest) => some (array done.reverse, rest)
      | some cs =>
          match readValue? fuel depth cs with
          | none => none
          | some (item, rest) =>
              match skipLines? (rest.length + 1) rest with
              | some (',' :: rest) => readItems? fuel depth (item :: done) rest
              | some (']' :: rest) => some (array (item :: done).reverse, rest)
              | _ => none
      | none => none

/-- Reads the pairs of a table in braces, of which there is at least one; `done` holds those
before. -/
def readPairs? : Nat → (depth : Nat) → Entries → List Char → Option (Toml × List Char)
  | 0, _, _, _ => none
  | fuel + 1, depth, done, cs =>
      match readKey? cs with
      | some (key :: path, '=' :: rest) =>
          match readValue? fuel depth (skipBlanks rest) with
          | none => none
          | some (value, rest) =>
              match put key path value done with
              | none => none
              | some done =>
                  match skipBlanks rest with
                  | ',' :: rest => readPairs? fuel depth done rest
                  | '\x7d' :: rest => some (table .inline done, rest)
                  | _ => none
      | _ => none

end

inductive Line where
  | table (path : List String) (key : String)
  | element (path : List String) (key : String)
  | pair (key : String) (path : List String) (value : Toml)

def splitKey? (parts : List String) : Option (List String × String) :=
  parts.getLast?.map (parts.dropLast, ·)

def readLine? (cs : List Char) : Option (Line × List Char) :=
  match cs with
  | '[' :: '[' :: rest =>
      match readKey? rest with
      | some (parts, ']' :: ']' :: rest) => do
          let (path, key) ← splitKey? parts
          return (.element path key, rest)
      | _ => none
  | '[' :: rest =>
      match readKey? rest with
      | some (parts, ']' :: rest) => do
          let (path, key) ← splitKey? parts
          return (.table path key, rest)
      | _ => none
  | cs =>
      match readKey? cs with
      | some (key :: path, '=' :: rest) => do
          let (value, rest) ← readValue? (2 * rest.length + 1) maxDepth (skipBlanks rest)
          return (.pair key path value, rest)
      | _ => none

def readLines? (done : List Line) : Nat → List Char → Option (List Line)
  | 0, _ => none
  | fuel + 1, cs =>
      match skipBlanks cs with
      | [] => some done.reverse
      | c :: rest =>
          if c == '#' || c == '\n' || c == '\r' then
            (endOfLine? (c :: rest)).bind (readLines? done fuel)
          else
            match readLine? (c :: rest) with
            | none => none
            | some (line, rest) => (endOfLine? rest).bind (readLines? (line :: done) fuel)

/-- The document so far: the table at the root, and the path of the table that keys go to. -/
structure Draft where
  root : Entries := []
  current : List String := []

def Draft.apply (draft : Draft) : Line → Option Draft
  | .table path key =>
      (descend path (openTable key) draft.root).map fun root => { root, current := path ++ [key] }
  | .element path key =>
      (descend path (openElement key) draft.root).map fun root => { root, current := path ++ [key] }
  | .pair key path value =>
      (descend draft.current (put key path value) draft.root).map ({ draft with root := · })

def ofLines? (lines : List Line) : Option Toml :=
  (lines.foldlM Draft.apply {}).map fun draft => table .header draft.root

def skipMark : List Char → List Char
  | '\uFEFF' :: rest => rest
  | cs => cs

def read? (text : String) : Option Toml :=
  let cs := skipMark text.toList
  (readLines? [] (cs.length + 1) cs).bind ofLines?

end DashboardFilters.Toml
