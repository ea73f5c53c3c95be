import DashboardFilters.Json.Numeral

/-!
Reading JSON text. `Json.read?` accepts one value with blanks around it. Numerals past all doubles
are refused, and so are escapes that do not spell a scalar value.
-/

namespace DashboardFilters

namespace Json

def isBlank (c : Char) : Bool :=
  c == ' ' || c == '\n' || c == '\r' || c == '\t'

def skipBlanks (cs : List Char) : List Char :=
  cs.dropWhile isBlank

def simpleEscape? : Char → Option Char
  | '"' => some '"'
  | '\\' => some '\\'
  | '/' => some '/'
  | 'b' => some '\x08'
  | 'f' => some '\x0c'
  | 'n' => some '\n'
  | 'r' => some '\r'
  | 't' => some '\t'
  | _ => none

/-- Reads a string after its opening quote; `done` holds what was read, the last first. -/
def readString? (done : List Char) : List Char → Option (String × List Char)
  | [] => none
  | '"' :: rest => some (String.ofList done.reverse, rest)
  | '\\' :: 'u' :: a :: b :: c :: d :: rest =>
      match digitsValue? 16 [a, b, c, d] with
      | none => none
      | some unit =>
          if 0xD800 ≤ unit && unit < 0xDC00 then
            match rest with
            | '\\' :: 'u' :: e :: f :: g :: h :: rest =>
                match digitsValue? 16 [e, f, g, h] with
                | none => none
                | some low =>
                    if 0xDC00 ≤ low && low < 0xE000 then
                      let n := 0x10000 + (unit - 0xD800) * 0x400 + (low - 0xDC00)
                      readString? (Char.ofNat n :: done) rest
                    else
                      none
            | _ => none
          else
            match scalar? unit with
            | some c => readString? (c :: done) rest
            | none => none
  | '\\' :: c :: rest =>
      match simpleEscape? c with
      | some c => readString? (c :: done) rest
      | none => none
  | c :: rest => if c.toNat < 0x20 then none else readString? (c :: done) rest

def readDigits? (cs : List Char) : Option (List Char × List Char) :=
  match cs.span Char.isDigit with
  | ([], _) => none
  | (digits, rest) => some (digits, rest)

def readWhole? : List Char → Option (List Char × List Char)
  | '0' :: rest => some (['0'], rest)
  | cs => readDigits? cs

def readFraction? : List Char → Option (List Char × List Char)
  | '.' :: rest => readDigits? rest
  | cs => some ([], cs)

def readSign : List Char → Bool × List Char
  | '-' :: rest => (true, rest)
  | '+' :: rest => (false, rest)
  | cs => (false, cs)

def readExponent? : List Char → Option (Option Int × List Char)
  | c :: rest =>
      if c == 'e' || c == 'E' then do
        let (negative, rest) := readSign rest
        let (digits, rest) ← readDigits? rest
        let value : Int := digitsValue 10 digits
        return (some (if negative then -value else value), rest)
      else
        some (none, c :: rest)
  | [] => some (none, [])

def readNumber? (cs : List Char) : Option (Json × List Char) := do
  let (negative, cs) :=
    match cs with
    | '-' :: rest => (true, rest)
    | cs => (false, cs)
  let (whole, cs) ← readWhole? cs
  let (fraction, cs) ← readFraction? cs
  let (exponent, cs) ← readExponent? cs
  return (← ofNumeral? negative whole fraction exponent, cs)

mutual

def readValue? : Nat → List Char → Option (Json × List Char)
  | 0, _ => none
  | fuel + 1, cs =>
      match cs with
      | 'n' :: 'u' :: 'l' :: 'l' :: rest => some (null, rest)
      | 't' :: 'r' :: 'u' :: 'e' :: rest => some (bool true, rest)
      | 'f' :: 'a' :: 'l' :: 's' :: 'e' :: rest => some (bool false, rest)
      | '"' :: rest => (readString? [] rest).map fun (s, rest) => (string s, rest)
      | '[' :: rest =>
          match skipBlanks rest with
          | ']' :: rest => some (array [], rest)
          | rest => readItems? fuel [] rest
      | '\x7b' :: rest =>
          match skipBlanks rest with
          | '\x7d' :: rest => some (object [], rest)
          | rest => readFields? fuel [] rest
      | cs => readNumber? cs

def readItems? : Nat → List Json → List Char → Option (Json × List Char)
  | 0, _, _ => none
  | fuel + 1, done, cs =>
      match readValue? fuel cs with
      | none => none
      | some (item, rest) =>
          match skipBlanks rest with
          | ',' :: rest => readItems? fuel (item :: done) (skipBlanks rest)
          | ']' :: rest => some (array (item :: done).reverse, rest)
          | _ => none

def readFields? : Nat → List (String × Json) → List Char → Option (Json × List Char)
  | 0, _, _ => none
  | fuel + 1, done, '"' :: cs =>
      match readString? [] cs with
      | none => none
      | some (key, rest) =>
          match skipBlanks rest with
          | ':' :: rest =>
              match readValue? fuel (skipBlanks rest) with
              | none => none
              | some (value, rest) =>
                  match skipBlanks rest with
                  | ',' :: rest => readFields? fuel ((key, value) :: done) (skipBlanks rest)
                  | '\x7d' :: rest => some (ofFields ((key, value) :: done).reverse, rest)
                  | _ => none
          | _ => none
  | _, _, _ => none

end

/-- Every call reads at least one character or comes right after one that did, so that twice the
length of the text bounds the calls. -/
def read? (text : String) : Option Json :=
  let cs := skipBlanks text.toList
  match readValue? (2 * cs.length + 1) cs with
  | some (value, rest) => if (skipBlanks rest).isEmpty then some value else none
  | none => none

end Json

end DashboardFilters
