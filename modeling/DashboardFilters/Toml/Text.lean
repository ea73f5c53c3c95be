import DashboardFilters.Digits

namespace DashboardFilters.Toml

def isBlank (c : Char) : Bool :=
  c == ' ' || c == '\t'

def skipBlanks (cs : List Char) : List Char :=
  cs.dropWhile isBlank

/-- All characters but the control characters; a tab is no control character here. -/
def isTextChar (c : Char) : Bool :=
  c == '\t' || 0x20 ≤ c.toNat && c.toNat != 0x7f

def newline? : List Char → Option (List Char)
  | '\n' :: rest => some rest
  | '\r' :: '\n' :: rest => some rest
  | _ => none

def skipComment : List Char → List Char
  | '#' :: rest => rest.dropWhile isTextChar
  | cs => cs

def endOfLine? (cs : List Char) : Option (List Char) :=
  match skipComment (skipBlanks cs) with
  | [] => some []
  | cs => newline? cs

def skipLines? : Nat → List Char → Option (List Char)
  | 0, _ => none
  | fuel + 1, cs =>
      match skipBlanks cs with
      | '#' :: rest => (newline? (rest.dropWhile isTextChar)).bind (skipLines? fuel)
      | '\n' :: rest => skipLines? fuel rest
      | '\r' :: rest => (newline? ('\r' :: rest)).bind (skipLines? fuel)
      | cs => some cs

def simpleEscape? : Char → Option Char
  | 'b' => some '\x08'
  | 't' => some '\t'
  | 'n' => some '\n'
  | 'f' => some '\x0c'
  | 'r' => some '\r'
  | '"' => some '"'
  | '\\' => some '\\'
  | _ => none

def escapedScalar? (digits : List Char) : Option Char :=
  (digitsValue? 16 digits).bind scalar?

def readBasic? (done : List Char) : List Char → Option (String × List Char)
  | [] => none
  | '"' :: rest => some (String.ofList done.reverse, rest)
  | '\\' :: 'u' :: a :: b :: c :: d :: rest =>
      match escapedScalar? [a, b, c, d] with
      | some scalar => readBasic? (scalar :: done) rest
      | none => none
  | '\\' :: 'U' :: a :: b :: c :: d :: e :: f :: g :: h :: rest =>
      match escapedScalar? [a, b, c, d, e, f, g, h] with
      | some scalar => readBasic? (scalar :: done) rest
      | none => none
  | '\\' :: c :: rest =>
      match simpleEscape? c with
      | some c => readBasic? (c :: done) rest
      | none => none
  | c :: rest => if isTextChar c then readBasic? (c :: done) rest else none

def readLiteral? (cs : List Char) : Option (String × List Char) :=
  let inside := cs.takeWhile fun c => isTextChar c && c != '\''
  match cs.drop inside.length with
  | '\'' :: rest => some (String.ofList inside, rest)
  | _ => none

def skipNewline (cs : List Char) : List Char :=
  (newline? cs).getD cs

def continuesLine (cs : List Char) : Bool :=
  (newline? (skipBlanks cs)).isSome

/-- Reads a string of several lines after its opening delimiter. Up to two quotes may stand before
the closing delimiter. After a backslash at the end of a line, blanks and newlines are `skipping`
up to the next other character. -/
def readMultiline? (done : List Char) (skipping : Bool) :
    List Char → Option (String × List Char)
  | [] => none
  | '"' :: '"' :: '"' :: '"' :: '"' :: rest =>
      some (String.ofList ('"' :: '"' :: done).reverse, rest)
  | '"' :: '"' :: '"' :: '"' :: rest => some (String.ofList ('"' :: done).reverse, rest)
  | '"' :: '"' :: '"' :: rest => some (String.ofList done.reverse, rest)
  | '\r' :: '\n' :: rest =>
      readMultiline? (if skipping then done else '\n' :: done) skipping rest
  | '\n' :: rest => readMultiline? (if skipping then done else '\n' :: done) skipping rest
  | '\\' :: 'u' :: a :: b :: c :: d :: rest =>
      match escapedScalar? [a, b, c, d] with
      | some scalar => readMultiline? (scalar :: done) false rest
      | none => none
  | '\\' :: 'U' :: a :: b :: c :: d :: e :: f :: g :: h :: rest =>
      match escapedScalar? [a, b, c, d, e, f, g, h] with
      | some scalar => readMultiline? (scalar :: done) false rest
      | none => none
  | '\\' :: c :: rest =>
      if continuesLine (c :: rest) then readMultiline? done true (c :: rest)
      else
        match simpleEscape? c with
        | some c => readMultiline? (c :: done) false rest
        | none => none
  | c :: rest =>
      if skipping && isBlank c then readMultiline? done true rest
      else if isTextChar c then readMultiline? (c :: done) false rest
      else none

def readMultilineLiteral? (done : List Char) : List Char → Option (String × List Char)
  | [] => none
  | '\'' :: '\'' :: '\'' :: '\'' :: '\'' :: rest =>
      some (String.ofList ('\'' :: '\'' :: done).reverse, rest)
  | '\'' :: '\'' :: '\'' :: '\'' :: rest => some (String.ofList ('\'' :: done).reverse, rest)
  | '\'' :: '\'' :: '\'' :: rest => some (String.ofList done.reverse, rest)
  | '\r' :: '\n' :: rest => readMultilineLiteral? ('\n' :: done) rest
  | '\n' :: rest => readMultilineLiteral? ('\n' :: done) rest
  | c :: rest => if isTextChar c then readMultilineLiteral? (c :: done) rest else none

def readString? : List Char → Option (String × List Char)
  | '"' :: '"' :: '"' :: rest => readMultiline? [] false (skipNewline rest)
  | '"' :: rest => readBasic? [] rest
  | '\'' :: '\'' :: '\'' :: rest => readMultilineLiteral? [] (skipNewline rest)
  | '\'' :: rest => readLiteral? rest
  | _ => none

end DashboardFilters.Toml
