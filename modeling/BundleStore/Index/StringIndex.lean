import BundleStore.Files.Tree
import BundleStore.Index.Interner
import BundleStore.Json.Mapping

set_option autoImplicit false

/-! An interner that may keep its mapping in a file. The file is written anew, as a whole, each
time a string comes for the first time; if that fails the string gets no number. -/

namespace BundleStore

structure StringIndex where
  interner : Interner
  /-- Where the mapping is kept, if it is kept at all. -/
  file : Option Location
deriving DecidableEq

namespace StringIndex

def volatile (interner : Interner) : StringIndex := ⟨interner, none⟩

def isBlank (byte : UInt8) : Bool := byte ∈ [0x20, 0x09, 0x0A, 0x0C, 0x0D]

/-- The bytes of the mapping file. -/
def fileBytes (interner : Interner) : List UInt8 :=
  (Json.Mapping.text (SortedMap.ofList interner.entries)).toUTF8.data.toList

/-- A file of blanks maps nothing. -/
def parse (bytes : List UInt8) : Except MappingFault Interner :=
  if bytes.all isBlank then .ok Interner.empty
  else match Json.Mapping.ofBytes? bytes with
    | none => .error .unreadable
    | some mapping => Interner.ofPairs mapping.entries

def save (location : Location) (interner : Interner) (tree : FileTree) :
    Except IoError FileTree :=
  tree.replace (FilePath.parent location.path) location.path (fileBytes interner)

/-- A file that is not there yet is made, with the folders above it. -/
def create (location : Location) (tree : FileTree) : Except IndexError StringIndex × FileTree :=
  match tree.makeFolders (FilePath.parent location.path) with
  | (.error cause, tree) => (.error (.io cause), tree)
  | (.ok (), tree) =>
      match save location Interner.empty tree with
      | .error cause => (.error (.io cause), tree)
      | .ok tree => (.ok ⟨Interner.empty, some location⟩, tree)

def load (location : Location) (tree : FileTree) : Except IndexError StringIndex :=
  match tree.read location.path with
  | .error cause => .error (.io cause)
  | .ok bytes =>
      match parse bytes with
      | .error fault => .error (.corrupt location.shown fault)
      | .ok interner => .ok ⟨interner, some location⟩

def openFile (location : Location) (tree : FileTree) : Except IndexError StringIndex × FileTree :=
  if tree.has location.path then (load location tree, tree) else create location tree

/-- What saving a mapping comes to. -/
abbrev Saving := Location → Interner → FileTree → Except IoError FileTree

/-- Interning, given what becomes of the write: the string is numbered first, and the number is taken
back if the mapping cannot be saved. -/
def internBy (saves : Saving) (index : StringIndex) (text : String) (tree : FileTree) :
    Except IndexError Nat × StringIndex × FileTree :=
  match index.interner.number? text with
  | some number => (.ok number, index, tree)
  | none =>
      let (number, interner) := index.interner.push text
      match index.file with
      | none => (.ok number, { index with interner }, tree)
      | some location =>
          match saves location interner tree with
          | .error cause => (.error (.io cause), { index with interner := interner.pop }, tree)
          | .ok tree => (.ok number, { index with interner }, tree)

def intern (index : StringIndex) (text : String) (tree : FileTree) :
    Except IndexError Nat × StringIndex × FileTree :=
  index.internBy save text tree

end StringIndex

end BundleStore
