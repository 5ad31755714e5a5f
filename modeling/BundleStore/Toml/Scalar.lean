import BundleStore.Text.Hex

set_option autoImplicit false

/-! Plain values of a TOML document. Strings are read from the character list; numbers, truth
values and dates are told apart once their text is cut out. Only whole numbers keep their value,
since no setting is anything else. -/

namespace BundleStore.Toml

/-- A whole number, or a value of any other type. -/
inductive Value where
  | integer (value : Int)
  | other
deriving DecidableEq

/-- Characters that may stand in a comment or a one-line string. -/
def printing (char : Char) : Bool := char = '\t' || (32 ≤ char.toNat && char.toNat ≠ 127)

def blank (char : Char) : Bool := char = ' ' || char = '\t'

def scalarValue? (digits : List Char) : Option Char := do
  let values ← digits.mapM Text.Hex.digitValue?
  let point := values.foldl (fun point digit => point * 16 + digit) 0
  if point.isValidChar then some (Char.ofNat point) else none

def escape? : Char → Option Char
  | 'b' => some '\x08'
  | 't' => some '\t'
  | 'n' => some '\n'
  | 'f' => some '\x0c'
  | 'r' => some '\r'
  | '"' => some '"'
  | '\\' => some '\\'
  | _ => none

/-- What follows an opening double quote, up to the closing one. -/
def basicBody : List Char → Option (List Char × List Char)
  | [] => none
  | '"' :: rest => some ([], rest)
  | '\\' :: 'u' :: a :: b :: c :: d :: rest => do
      let char ← scalarValue? [a, b, c, d]
      let (later, rest) ← basicBody rest
      return (char :: later, rest)
  | '\\' :: 'U' :: a :: b :: c :: d :: e :: f :: g :: h :: rest => do
      let char ← scalarValue? [a, b, c, d, e, f, g, h]
      let (later, rest) ← basicBody rest
      return (char :: later, rest)
  | '\\' :: escaped :: rest => do
      let char ← escape? escaped
      let (later, rest) ← basicBody rest
      return (char :: later, rest)
  | char :: rest =>
      if printing char then (basicBody rest).map (fun (later, rest) => (char :: later, rest))
      else none

def literalBody : List Char → Option (List Char × List Char)
  | [] => none
  | '\'' :: rest => some ([], rest)
  | char :: rest =>
      if printing char then (literalBody rest).map (fun (later, rest) => (char :: later, rest))
      else none

/-- Up to two quotes may stand right before the closing three. -/
def dropTwo (quote : Char) (chars : List Char) : List Char :=
  let count := min 2 (chars.takeWhile (· = quote)).length
  chars.drop count

/-- Whether nothing but blanks stands before the end of the line. -/
def lineEnds (chars : List Char) : Bool :=
  match chars.dropWhile blank with
  | '\n' :: _ => true
  | '\r' :: '\n' :: _ => true
  | _ => false

/-- Passes over a string of several lines. A backslash at the end of a line joins it to the
next. -/
def longBasic : List Char → Option (List Char)
  | [] => none
  | '"' :: '"' :: '"' :: rest => some (dropTwo '"' rest)
  | '\\' :: 'u' :: a :: b :: c :: d :: rest => do
      let _ ← scalarValue? [a, b, c, d]
      longBasic rest
  | '\\' :: 'U' :: a :: b :: c :: d :: e :: f :: g :: h :: rest => do
      let _ ← scalarValue? [a, b, c, d, e, f, g, h]
      longBasic rest
  | '\\' :: escaped :: rest =>
      if (escape? escaped).isSome || lineEnds (escaped :: rest) then longBasic rest else none
  | '\r' :: '\n' :: rest => longBasic rest
  | char :: rest => if printing char || char = '\n' then longBasic rest else none

def longLiteral : List Char → Option (List Char)
  | [] => none
  | '\'' :: '\'' :: '\'' :: rest => some (dropTwo '\'' rest)
  | '\r' :: '\n' :: rest => longLiteral rest
  | char :: rest => if printing char || char = '\n' then longLiteral rest else none

/-- Digits with single underscores between them. -/
def grouped (digit : Char → Bool) : List Char → Bool
  | [] => false
  | [last] => digit last
  | first :: '_' :: rest => digit first && grouped digit rest
  | first :: rest => digit first && grouped digit rest

def withoutSign : List Char → List Char
  | '+' :: rest => rest
  | '-' :: rest => rest
  | chars => chars

/-- No zero in front of other digits. -/
def decimal (chars : List Char) : Bool :=
  grouped Char.isDigit chars && (chars.head? ≠ some '0' || chars.length = 1)

def numberOf (base : Nat) (chars : List Char) : Nat :=
  (chars.filterMap Text.Hex.digitValue?).foldl (fun value digit => value * base + digit) 0

def within (value : Int) : Option Value :=
  if -0x8000000000000000 ≤ value ∧ value < 0x8000000000000000 then some (.integer value) else none

def integer? : List Char → Option Value
  | '0' :: 'x' :: digits =>
      if grouped (fun char => (Text.Hex.digitValue? char).isSome) digits then
        within (numberOf 16 digits)
      else none
  | '0' :: 'o' :: digits =>
      if grouped (fun char => '0' ≤ char && char ≤ '7') digits then within (numberOf 8 digits)
      else none
  | '0' :: 'b' :: digits =>
      if grouped (fun char => char = '0' || char = '1') digits then within (numberOf 2 digits)
      else none
  | chars =>
      let digits := withoutSign chars
      if decimal digits then
        let value : Int := numberOf 10 digits
        within (if chars.head? = some '-' then -value else value)
      else none

/-- Whether a value rounds to the largest double or less, an exponent of ten apart. -/
def finite (significand : Nat) (exponent : Int) : Bool :=
  let digits : Int := (Nat.toDigits 10 significand).length
  if significand = 0 ∨ digits + exponent < 300 then true
  else if 320 < digits + exponent then false
  else
    significand * Nat.pow 10 exponent.toNat <
      (Nat.pow 2 1024 - Nat.pow 2 970) * Nat.pow 10 (-exponent).toNat

/-- A number with a fraction or an exponent. One above all doubles is refused; one below all of
them is not. -/
def isFloat (chars : List Char) : Bool :=
  let unsigned := withoutSign chars
  let (mantissa, exponent) := unsigned.span (fun char => char ≠ 'e' && char ≠ 'E')
  let (whole, fraction) := mantissa.span (· ≠ '.')
  let power := exponent.drop 1
  let places := fraction.drop 1
  let size : Int := numberOf 10 (withoutSign power)
  let scale := (if power.head? = some '-' then -size else size) - (places.filter Char.isDigit).length
  unsigned = ['i', 'n', 'f'] || unsigned = ['n', 'a', 'n'] ||
    ((!exponent.isEmpty || !fraction.isEmpty) && decimal whole &&
      (exponent.isEmpty || grouped Char.isDigit (withoutSign power)) &&
      (fraction.isEmpty || grouped Char.isDigit places) &&
      (chars.head? = some '-' || finite (numberOf 10 (whole ++ places)) scale))

def twoDigits? (chars : List Char) (limit : Nat) : Option (Nat × List Char) :=
  match chars with
  | tens :: ones :: rest =>
      let value := numberOf 10 [tens, ones]
      if tens.isDigit && ones.isDigit && value ≤ limit then some (value, rest) else none
  | _ => none

def daysOf (year month : Nat) : Nat :=
  if month = 2 then
    if year % 4 = 0 ∧ (year % 100 ≠ 0 ∨ year % 400 = 0) then 29 else 28
  else if month ∈ [4, 6, 9, 11] then 30
  else 31

/-- A day, as year, month and day of the month. -/
def date? : List Char → Option (List Char)
  | a :: b :: c :: d :: '-' :: rest => do
      if !([a, b, c, d].all Char.isDigit) then none
      let (month, rest) ← twoDigits? rest 12
      match rest with
      | '-' :: rest =>
          let (day, rest) ← twoDigits? rest (daysOf (numberOf 10 [a, b, c, d]) month)
          if month = 0 ∨ day = 0 then none else some rest
      | _ => none
  | _ => none

def time? (chars : List Char) : Option (List Char) := do
  let (_, rest) ← twoDigits? chars 23
  match rest with
  | ':' :: rest =>
      let (_, rest) ← twoDigits? rest 59
      match rest with
      | ':' :: rest =>
          let (_, rest) ← twoDigits? rest 60
          match rest with
          | '.' :: rest =>
              if (rest.takeWhile Char.isDigit).isEmpty then none
              else some (rest.dropWhile Char.isDigit)
          | rest => some rest
      | _ => none
  | _ => none

def isOffset : List Char → Bool
  | [] => true
  | ['Z'] => true
  | ['z'] => true
  | sign :: rest =>
      (sign = '+' || sign = '-') &&
        match twoDigits? rest 23 with
        | some (_, ':' :: minutes) => (twoDigits? minutes 59).any (·.2.isEmpty)
        | _ => false

def isMoment (chars : List Char) : Bool :=
  match date? chars with
  | some [] => true
  | some (delimiter :: rest) =>
      (delimiter = 'T' || delimiter = 't' || delimiter = ' ') && (time? rest).any isOffset
  | none => time? chars = some []

/-- What a text without quotes or brackets stands for. -/
def scalar? (chars : List Char) : Option Value :=
  match integer? chars with
  | some value => some value
  | none =>
      if isFloat chars || isMoment chars || chars = "true".toList || chars = "false".toList then
        some .other
      else none

/-- Characters that plain values are made of. -/
def plain (char : Char) : Bool :=
  char.isAlphanum || char = '_' || char = '+' || char = '-' || char = '.' || char = ':'

/-- A day may be followed by a blank and a time of day. -/
def cutScalar (chars : List Char) : List Char × List Char :=
  let (token, rest) := chars.span plain
  match date? token, rest with
  | some [], ' ' :: later =>
      let (time, after) := later.span plain
      if (time.head?.any Char.isDigit) then (token ++ ' ' :: time, after) else (token, rest)
  | _, _ => (token, rest)

end BundleStore.Toml
