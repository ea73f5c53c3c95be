import DashboardFilters.Floating.Decimal
import DashboardFilters.Toml

/-!
TOML numbers, dates and times. Digits may be grouped by single underscores between them. Integers
have 64 bits. Of a date and time only the form is checked, since nothing reads it.
-/

namespace DashboardFilters.Toml

/-- Takes digits of the base off the head; an underscore is passed between two of them. -/
def takeDigits (base : Nat) : List Char → List Char × List Char
  | '_' :: c :: rest =>
      if isDigitIn base c then
        let (digits, rest) := takeDigits base rest
        (c :: digits, rest)
      else
        ([], '_' :: c :: rest)
  | c :: rest =>
      if isDigitIn base c then
        let (digits, rest) := takeDigits base rest
        (c :: digits, rest)
      else
        ([], c :: rest)
  | [] => ([], [])

def readDigits? (base : Nat) : List Char → Option (List Char × List Char)
  | [] => none
  | c :: rest =>
      if isDigitIn base c then
        let (digits, rest) := takeDigits base rest
        some (c :: digits, rest)
      else
        none

def readSign : List Char → Bool × List Char
  | '-' :: rest => (true, rest)
  | '+' :: rest => (false, rest)
  | cs => (false, cs)

def readWhole? : List Char → Option (List Char × List Char)
  | '0' :: rest => some (['0'], rest)
  | cs => readDigits? 10 cs

def integer? (i : Int) : Option Toml :=
  if Int64.minValue.toInt ≤ i ∧ i ≤ Int64.maxValue.toInt then some (integer i) else none

def readInteger? (cs : List Char) : Option (Toml × List Char) :=
  let based (base : Nat) (cs : List Char) : Option (Toml × List Char) := do
    let (digits, rest) ← readDigits? base cs
    return (← integer? (digitsValue base digits), rest)
  match cs with
  | '0' :: 'x' :: rest => based 16 rest
  | '0' :: 'o' :: rest => based 8 rest
  | '0' :: 'b' :: rest => based 2 rest
  | cs => do
      let (negative, cs) := readSign cs
      let (digits, rest) ← readWhole? cs
      let magnitude : Int := digitsValue 10 digits
      return (← integer? (if negative then -magnitude else magnitude), rest)

def readFraction? : List Char → Option (List Char × List Char)
  | '.' :: rest => readDigits? 10 rest
  | cs => some ([], cs)

def readExponent? : List Char → Option (Option Int × List Char)
  | c :: rest =>
      if c == 'e' || c == 'E' then do
        let (negative, rest) := readSign rest
        let (digits, rest) ← readDigits? 10 rest
        let value : Int := digitsValue 10 digits
        return (some (if negative then -value else value), rest)
      else
        some (none, c :: rest)
  | [] => some (none, [])

def readNamed? (negative : Bool) : List Char → Option (Toml × List Char)
  | 'i' :: 'n' :: 'f' :: rest => some (float (.infinite negative), rest)
  | 'n' :: 'a' :: 'n' :: rest => some (float .nan, rest)
  | _ => none

/-- A float has a fraction, an exponent or both, or it is named. A numeral too large for a double is
refused, unless it is negative. -/
def readFloat? (cs : List Char) : Option (Toml × List Char) :=
  let (negative, unsigned) := readSign cs
  match readNamed? negative unsigned with
  | some named => some named
  | none => do
      let (whole, rest) ← readWhole? unsigned
      let (fraction, rest) ← readFraction? rest
      let (exponent, rest) ← readExponent? rest
      if fraction.isEmpty && exponent.isNone then
        none
      else
        let nearest := (Decimal.ofParts negative whole fraction (exponent.getD 0)).toFloating
          .binary64
        if nearest = .infinite false then none else return (float nearest, rest)

def readPair? (low high : Nat) : List Char → Option (Nat × List Char)
  | a :: b :: rest => do
      let n ← digitsValue? 10 [a, b]
      if low ≤ n ∧ n ≤ high then return (n, rest) else none
  | _ => none

def readChar? (c : Char) : List Char → Option (List Char)
  | d :: rest => if d = c then some rest else none
  | [] => none

def daysIn (year month : Nat) : Nat :=
  if month = 2 then
    if year % 4 = 0 ∧ (year % 100 ≠ 0 ∨ year % 400 = 0) then 29 else 28
  else if month = 4 ∨ month = 6 ∨ month = 9 ∨ month = 11 then 30
  else 31

def readDate? : List Char → Option (List Char)
  | a :: b :: c :: d :: rest => do
      let year ← digitsValue? 10 [a, b, c, d]
      let rest ← readChar? '-' rest
      let (month, rest) ← readPair? 1 12 rest
      let rest ← readChar? '-' rest
      let (_, rest) ← readPair? 1 (daysIn year month) rest
      return rest
  | _ => none

def skipSecondFraction? : List Char → Option (List Char)
  | '.' :: rest =>
      match rest.span Char.isDigit with
      | ([], _) => none
      | (_, rest) => some rest
  | cs => some cs

/-- Seconds run to sixty. -/
def readTime? (cs : List Char) : Option (List Char) := do
  let (_, rest) ← readPair? 0 23 cs
  let rest ← readChar? ':' rest
  let (_, rest) ← readPair? 0 59 rest
  let rest ← readChar? ':' rest
  let (_, rest) ← readPair? 0 60 rest
  skipSecondFraction? rest

def readOffset? : List Char → Option (List Char)
  | c :: rest =>
      if c == 'Z' || c == 'z' then some rest
      else if c == '+' || c == '-' then do
        let (_, rest) ← readPair? 0 23 rest
        let rest ← readChar? ':' rest
        let (_, rest) ← readPair? 0 59 rest
        return rest
      else
        some (c :: rest)
  | [] => some []

/-- What follows a date, a time, or a date with a time and perhaps an offset. After a date, a
separator that no time follows is not part of it. -/
def readDateTime? (cs : List Char) : Option (Toml × List Char) :=
  match readDate? cs with
  | none => (readTime? cs).map (dateTime, ·)
  | some rest =>
      match rest with
      | c :: after =>
          if c == 'T' || c == 't' || c == ' ' then
            match readTime? after with
            | some rest => (readOffset? rest).map (dateTime, ·)
            | none => some (dateTime, rest)
          else
            some (dateTime, rest)
      | [] => some (dateTime, [])

def readNumeral? (cs : List Char) : Option (Toml × List Char) :=
  (readDateTime? cs).or ((readFloat? cs).or (readInteger? cs))

end DashboardFilters.Toml
