import BundleStore.SortedMap
import BundleStore.Text.Hex
import BundleStore.Json.Printer

set_option autoImplicit false

/-! A JSON object that maps strings to indices, as an index file holds it. Indices are whole
numbers below two to the thirty-second, and of a repeated key the last one counts. -/

namespace BundleStore.Json.Mapping

/-- A written character, or an escape that gives one unit of sixteen bits. -/
inductive Piece where
  | char (value : Char)
  | unit (value : Nat)

def simpleEscape? : Char → Option Char
  | '"' => some '"'
  | '\\' => some '\\'
  | '/' => some '/'
  | 'b' => some '\x08'
  | 'f' => some '\x0c'
  | 'n' => some '\n'
  | 'r' => some '\r'
  | 't' => some '\t'
  | _ => none

def fourDigits? (first second third fourth : Char) : Option Nat := do
  let first ← Text.Hex.digitValue? first
  let second ← Text.Hex.digitValue? second
  let third ← Text.Hex.digitValue? third
  let fourth ← Text.Hex.digitValue? fourth
  return ((first * 16 + second) * 16 + third) * 16 + fourth

/-- Reads up to the closing quote. Control characters must be escaped. -/
def pieces : List Char → Option (List Piece × List Char)
  | [] => none
  | '"' :: rest => some ([], rest)
  | '\\' :: 'u' :: first :: second :: third :: fourth :: rest => do
      let unit ← fourDigits? first second third fourth
      let (later, rest) ← pieces rest
      return (.unit unit :: later, rest)
  | '\\' :: char :: rest => do
      let char ← simpleEscape? char
      let (later, rest) ← pieces rest
      return (.char char :: later, rest)
  | char :: rest =>
      if char.toNat < 32 ∨ char = '\\' then none
      else (pieces rest).map (fun (later, rest) => (.char char :: later, rest))

def isHigh (unit : Nat) : Bool := 0xD800 ≤ unit && unit < 0xDC00

def isLow (unit : Nat) : Bool := 0xDC00 ≤ unit && unit < 0xE000

/-- A high unit and the low one after it make one character; neither stands alone. -/
def join : List Piece → Option (List Char)
  | [] => some []
  | .char char :: rest => (join rest).map (char :: ·)
  | .unit high :: .unit low :: rest =>
      if isHigh high then
        if isLow low then
          (join rest).map (Char.ofNat (0x10000 + (high - 0xD800) * 0x400 + (low - 0xDC00)) :: ·)
        else none
      else if isLow high then none
      else (join (.unit low :: rest)).map (Char.ofNat high :: ·)
  | .unit unit :: rest =>
      if isHigh unit || isLow unit then none else (join rest).map (Char.ofNat unit :: ·)

def isBlank (char : Char) : Bool := char = ' ' || char = '\n' || char = '\t' || char = '\r'

def skipBlanks (chars : List Char) : List Char := chars.dropWhile isBlank

def readKey : List Char → Option (String × List Char)
  | '"' :: rest => do
      let (parts, rest) ← pieces rest
      return (String.ofList (← join parts), rest)
  | _ => none

def digitsValue (digits : List Char) : Nat :=
  digits.foldl (fun value digit => value * 10 + (digit.toNat - '0'.toNat)) 0

/-- Indices fit into four bytes. -/
def indexLimit : Nat := 0x100000000

/-- No sign, no fraction, and no zero in front. -/
def readIndex (chars : List Char) : Option (Nat × List Char) :=
  match chars with
  | '0' :: rest => some (0, rest)
  | _ =>
      let (digits, rest) := chars.span Char.isDigit
      let value := digitsValue digits
      if digits.isEmpty ∨ indexLimit ≤ value then none else some (value, rest)

/-- What follows the opening brace. Every member takes a character, so their number is bounded by
the length of the text. -/
def readMembers : Nat → List Char → Option (List (String × Nat) × List Char)
  | 0, _ => none
  | bound + 1, chars => do
      let (key, rest) ← readKey (skipBlanks chars)
      match skipBlanks rest with
      | ':' :: rest =>
          let (index, rest) ← readIndex (skipBlanks rest)
          match skipBlanks rest with
          | ',' :: rest =>
              let (members, rest) ← readMembers bound rest
              return ((key, index) :: members, rest)
          | '\x7d' :: rest => return ([(key, index)], rest)
          | _ => none
      | _ => none

def readObject (chars : List Char) : Option (List (String × Nat) × List Char) :=
  match skipBlanks chars with
  | '\x7b' :: rest =>
      match skipBlanks rest with
      | '\x7d' :: rest => some ([], rest)
      | members => readMembers members.length members
  | _ => none

def ofChars? (chars : List Char) : Option (SortedMap String Nat) := do
  let (members, rest) ← readObject chars
  if (skipBlanks rest).isEmpty then some (SortedMap.ofList members) else none

def ofBytes? (bytes : List UInt8) : Option (SortedMap String Nat) := do
  ofChars? (← String.fromUTF8? ⟨bytes.toArray⟩).toList

/-- Keys in order, one to a line. -/
def text (mapping : SortedMap String Nat) : String :=
  (Json.object (mapping.entries.map (fun (key, index) => (key, Json.natural index)))).pretty

end BundleStore.Json.Mapping
