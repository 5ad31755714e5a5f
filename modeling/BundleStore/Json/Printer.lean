set_option autoImplicit false

/-! JSON text: on one line without spaces, or spread over lines with two spaces for each level.
Numbers are handed over as their text. -/

namespace BundleStore

inductive Json where
  | null
  | boolean (value : Bool)
  | number (text : String)
  | string (text : String)
  | array (items : List Json)
  | object (members : List (String × Json))

namespace Json

def natural (value : Nat) : Json := .number (toString value)

def escaped (char : Char) : List Char :=
  match char with
  | '"' => ['\\', '"']
  | '\\' => ['\\', '\\']
  | '\x08' => ['\\', 'b']
  | '\t' => ['\\', 't']
  | '\n' => ['\\', 'n']
  | '\x0c' => ['\\', 'f']
  | '\r' => ['\\', 'r']
  | other =>
      if other.toNat < 32 then
        ['\\', 'u', '0', '0', Nat.digitChar (other.toNat / 16), Nat.digitChar (other.toNat % 16)]
      else [other]

def stringText (text : String) : String :=
  String.ofList ('"' :: text.toList.flatMap escaped ++ ['"'])

mutual

def compact : Json → String
  | null => "null"
  | boolean value => if value then "true" else "false"
  | number text => text
  | string text => stringText text
  | array items => "[" ++ String.intercalate "," (compactItems items) ++ "]"
  | object members => "\x7b" ++ String.intercalate "," (compactMembers members) ++ "\x7d"

def compactItems : List Json → List String
  | [] => []
  | item :: rest => item.compact :: compactItems rest

def compactMembers : List (String × Json) → List String
  | [] => []
  | (key, value) :: rest => (stringText key ++ ":" ++ value.compact) :: compactMembers rest

end

def indentation (level : Nat) : String := String.ofList (List.replicate (2 * level) ' ')

/-- Lines between brackets, one level further in; nothing between them if there are none. -/
def block (level : Nat) (opening closing : String) (lines : List String) : String :=
  if lines.isEmpty then opening ++ closing
  else
    let inner := "\n" ++ indentation (level + 1)
    opening ++ inner ++ String.intercalate ("," ++ inner) lines ++ "\n" ++ indentation level ++
      closing

mutual

def spread (level : Nat) : Json → String
  | null => "null"
  | boolean value => if value then "true" else "false"
  | number text => text
  | string text => stringText text
  | array items => block level "[" "]" (spreadItems (level + 1) items)
  | object members => block level "\x7b" "\x7d" (spreadMembers (level + 1) members)

def spreadItems (level : Nat) : List Json → List String
  | [] => []
  | item :: rest => item.spread level :: spreadItems level rest

def spreadMembers (level : Nat) : List (String × Json) → List String
  | [] => []
  | (key, value) :: rest =>
      (stringText key ++ ": " ++ value.spread level) :: spreadMembers level rest

end

def pretty (json : Json) : String := json.spread 0

end Json

end BundleStore
