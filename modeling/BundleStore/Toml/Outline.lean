import BundleStore.SortedMap

set_option autoImplicit false

/-! Which keys of a TOML document are taken, and by what. A key may name a value, a table or an
array of tables, once; tables that only lie on the way to another one may still be opened, and
tables made by dotted keys grow only by dotted keys. -/

namespace BundleStore.Toml

inductive Kind where
  | value
  /-- Made by a dotted key. -/
  | dotted
  /-- Lies on the way to a table with a header. -/
  | passed
  /-- Has a header of its own. -/
  | opened
  | tables (count : Nat)
deriving DecidableEq

/-- A key, and which table of an array it means; zero for a single table. -/
structure Step where
  key : String
  table : Nat

namespace Step

instance : Ord Step := ⟨compareLex (compareOn key) (compareOn table)⟩

instance : Std.TransOrd Step :=
  inferInstanceAs (Std.TransCmp (compareLex (compareOn key) (compareOn table)))

end Step

abbrev Place := List Step

abbrev Outline := SortedMap Place Kind

namespace Outline

def kind? (outline : Outline) (place : Place) : Option Kind := SortedMap.find? outline place

def setKind (outline : Outline) (place : Place) (kind : Kind) : Outline :=
  SortedMap.insert outline place kind

/-- Goes down by keys, making tables where there are none. -/
def descend (onTheWay : Kind) (outline : Outline) (place : Place) :
    List String → Option (Outline × Place)
  | [] => some (outline, place)
  | key :: rest =>
      let next := place ++ [⟨key, 0⟩]
      match outline.kind? next with
      | none => descend onTheWay (outline.setKind next onTheWay) next rest
      | some .value => none
      | some (.tables count) => descend onTheWay outline (place ++ [⟨key, count⟩]) rest
      | some .opened => if onTheWay = .dotted then none else descend onTheWay outline next rest
      | some _ => descend onTheWay outline next rest

def splitLast (keys : List String) : Option (List String × String) :=
  keys.getLast?.map (fun last => (keys.dropLast, last))

/-- A key and its value inside the table at the place. -/
def define (outline : Outline) (place : Place) (keys : List String) : Option Outline := do
  let (path, key) ← splitLast keys
  let (outline, table) ← descend .dotted outline place path
  if !path.isEmpty ∧ outline.kind? table ≠ some .dotted then none
  let next := table ++ [⟨key, 0⟩]
  if (outline.kind? next).isSome then none else some (outline.setKind next .value)

/-- A header opens a table. -/
def openTable (outline : Outline) (keys : List String) : Option (Outline × Place) := do
  let (path, key) ← splitLast keys
  let (outline, parent) ← descend .passed outline [] path
  let place := parent ++ [⟨key, 0⟩]
  match outline.kind? place with
  | none => some (outline.setKind place .opened, place)
  | some .passed => some (outline.setKind place .opened, place)
  | some _ => none

/-- A header adds a table to an array of tables. -/
def addTable (outline : Outline) (keys : List String) : Option (Outline × Place) := do
  let (path, key) ← splitLast keys
  let (outline, parent) ← descend .passed outline [] path
  let array := parent ++ [⟨key, 0⟩]
  match outline.kind? array with
  | none => some (outline.setKind array (.tables 1), parent ++ [⟨key, 1⟩])
  | some (.tables count) =>
      some (outline.setKind array (.tables (count + 1)), parent ++ [⟨key, count + 1⟩])
  | some _ => none

end Outline

end BundleStore.Toml
