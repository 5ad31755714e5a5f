import BundleStore.Error
import BundleStore.SortedMap

set_option autoImplicit false

/-! Strings numbered in the order in which they first came, in two tables: the number of each string,
and the string of each number. Each operation writes both, so that they stay in step. -/

namespace BundleStore

structure Interner where
  byString : SortedMap String Nat
  byIndex : List String
deriving DecidableEq

namespace Interner

def empty : Interner := ⟨.empty, []⟩

def size (interner : Interner) : Nat := interner.byIndex.length

def number? (interner : Interner) (text : String) : Option Nat := interner.byString.find? text

def string? (interner : Interner) (number : Nat) : Option String := interner.byIndex[number]?

def entries (interner : Interner) : List (String × Nat) := interner.byIndex.zipIdx

/-- The next number goes to the string, which is meant to have none yet. -/
def push (interner : Interner) (text : String) : Nat × Interner :=
  (interner.size,
    { byString := interner.byString.insert text interner.size
      byIndex := interner.byIndex ++ [text] })

/-- Takes the last push back. -/
def pop (interner : Interner) : Interner :=
  match interner.byIndex.getLast? with
  | none => interner
  | some text =>
      { byString := interner.byString.erase text
        byIndex := interner.byIndex.dropLast }

/-- The number of the string, with the interner that knows it. -/
def intern (interner : Interner) (text : String) : Nat × Interner :=
  match interner.number? text with
  | some number => (number, interner)
  | none => interner.push text

/-- Takes numbered strings in the order of their numbers, which must come without a gap. -/
def extend (interner : Interner) : List (String × Nat) → Except MappingFault Interner
  | [] => .ok interner
  | (text, number) :: rest =>
      if number ≠ interner.size then .error (.outOfSequence number interner.size)
      else if interner.byString.contains text then .error (.repeated text)
      else extend (interner.push text).2 rest

def ofPairs (pairs : List (String × Nat)) : Except MappingFault Interner :=
  empty.extend (pairs.mergeSort (fun left right => left.2 ≤ right.2))

/-- Numbers of the namespaces that every repository knows. -/
def namespaces : Interner :=
  Name.builtinNamespaces.foldl (fun interner entry => (interner.intern entry.2).2) empty

end Interner

end BundleStore
