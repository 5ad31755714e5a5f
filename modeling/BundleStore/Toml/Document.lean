import BundleStore.Toml.Outline
import BundleStore.Toml.Scalar

set_option autoImplicit false

/-! Reading a TOML document: lines of keys with values, under headers. The result says which keys
are taken and gives the values at the top. -/

namespace BundleStore.Toml

def skipBlanks (chars : List Char) : List Char := chars.dropWhile blank

/-- Passes over blanks, line ends and comments. -/
def skipLines (inComment : Bool) : List Char → Option (List Char)
  | [] => some []
  | '\n' :: rest => skipLines false rest
  | '\r' :: '\n' :: rest => skipLines false rest
  | char :: rest =>
      if inComment then (if printing char then skipLines true rest else none)
      else if blank char then skipLines false rest
      else if char = '#' then skipLines true rest
      else some (char :: rest)

/-- The rest of a line, which may hold nothing but a comment. -/
def endLine (chars : List Char) : Option (List Char) :=
  match skipBlanks chars with
  | [] => some []
  | '#' :: rest =>
      match rest.dropWhile printing with
      | [] => some []
      | '\n' :: rest => some rest
      | '\r' :: '\n' :: rest => some rest
      | _ => none
  | '\n' :: rest => some rest
  | '\r' :: '\n' :: rest => some rest
  | _ => none

def bareChar (char : Char) : Bool := char.isAlphanum || char = '_' || char = '-'

def readKey (chars : List Char) : Option (String × List Char) :=
  match chars with
  | '"' :: rest => (basicBody rest).map (fun (key, rest) => (String.ofList key, rest))
  | '\'' :: rest => (literalBody rest).map (fun (key, rest) => (String.ofList key, rest))
  | _ =>
      let (key, rest) := chars.span bareChar
      if key.isEmpty then none else some (String.ofList key, rest)

/-- Keys joined by dots, with blanks around them. -/
def joinedKeys : Nat → List Char → Option (List String × List Char)
  | 0, _ => none
  | bound + 1, chars => do
      let (key, rest) ← readKey (skipBlanks chars)
      match skipBlanks rest with
      | '.' :: rest =>
          let (keys, rest) ← joinedKeys bound rest
          return (key :: keys, rest)
      | rest => return ([key], rest)

/-- How many keys may be joined, and how deep values may be nested. -/
def depthLimit : Nat := 79

def readKeys (chars : List Char) : Option (List String × List Char) :=
  joinedKeys depthLimit chars

mutual

/-- Every call takes a character at least, or comes right before one that does; that many calls
and nested values are left. -/
def readValue : Nat → Nat → List Char → Option (Value × List Char)
  | 0, _, _ => none
  | bound + 1, depth, chars =>
      match chars with
      | '"' :: '"' :: '"' :: rest => (longBasic rest).map (fun rest => (.other, rest))
      | '\'' :: '\'' :: '\'' :: rest => (longLiteral rest).map (fun rest => (.other, rest))
      | '"' :: rest => (basicBody rest).map (fun (_, rest) => (.other, rest))
      | '\'' :: rest => (literalBody rest).map (fun (_, rest) => (.other, rest))
      | '[' :: rest =>
          if depth = 0 then none
          else (readItems bound (depth - 1) rest).map (fun rest => (.other, rest))
      | '\x7b' :: rest =>
          if depth = 0 then none
          else match skipBlanks rest with
          | '\x7d' :: rest => some (.other, rest)
          | pairs =>
              (readPairs bound (depth - 1) SortedMap.empty pairs).map (fun rest => (.other, rest))
      | _ =>
          let (token, rest) := cutScalar chars
          (scalar? token).map (fun value => (value, rest))

def readItems : Nat → Nat → List Char → Option (List Char)
  | 0, _, _ => none
  | bound + 1, depth, chars => do
      match ← skipLines false chars with
      | ']' :: rest => some rest
      | item =>
          let (_, rest) ← readValue bound depth item
          match ← skipLines false rest with
          | ',' :: rest => readItems bound depth rest
          | ']' :: rest => some rest
          | _ => none

def readPairs : Nat → Nat → Outline → List Char → Option (List Char)
  | 0, _, _, _ => none
  | bound + 1, depth, outline, chars => do
      let (keys, rest) ← readKeys chars
      match rest with
      | '=' :: rest =>
          let outline ← outline.define [] keys
          let (_, rest) ← readValue bound depth (skipBlanks rest)
          match skipBlanks rest with
          | ',' :: rest => readPairs bound depth outline rest
          | '\x7d' :: rest => some rest
          | _ => none
      | _ => none

end

structure Document where
  outline : Outline
  /-- The table that the next key belongs to. -/
  table : Place
  /-- Values at the top of the document. -/
  settings : List (String × Value)

def Document.empty : Document := ⟨SortedMap.empty, [], []⟩

def Document.define (document : Document) (keys : List String) (value : Value) :
    Option Document := do
  let outline ← document.outline.define document.table keys
  let settings := match document.table, keys with
    | [], [key] => (key, value) :: document.settings
    | _, _ => document.settings
  return { document with outline, settings }

def readHeader (document : Document) (chars : List Char) : Option (Document × List Char) :=
  match chars with
  | '[' :: rest => do
      let (keys, rest) ← readKeys rest
      match rest with
      | ']' :: ']' :: rest =>
          let (outline, table) ← document.outline.addTable keys
          return ({ document with outline, table }, ← endLine rest)
      | _ => none
  | _ => do
      let (keys, rest) ← readKeys chars
      match rest with
      | ']' :: rest =>
          let (outline, table) ← document.outline.openTable keys
          return ({ document with outline, table }, ← endLine rest)
      | _ => none

def readLine (document : Document) (chars : List Char) : Option (Document × List Char) := do
  let (keys, rest) ← readKeys chars
  match rest with
  | '=' :: rest =>
      let (value, rest) ← readValue (2 * rest.length + 2) depthLimit (skipBlanks rest)
      return (← document.define keys value, ← endLine rest)
  | _ => none

/-- Every line that holds something takes a character. -/
def readLines : Nat → Document → List Char → Option Document
  | 0, _, _ => none
  | bound + 1, document, chars => do
      match ← skipLines false chars with
      | [] => return document
      | '[' :: rest =>
          let (document, rest) ← readHeader document rest
          readLines bound document rest
      | line =>
          let (document, rest) ← readLine document line
          readLines bound document rest

def Document.ofChars? (chars : List Char) : Option Document :=
  let chars := match chars with
    | '\ufeff' :: rest => rest
    | other => other
  readLines (chars.length + 1) Document.empty chars

end BundleStore.Toml
