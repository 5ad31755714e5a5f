import BundleStore.Error
import BundleStore.Files.Path
import BundleStore.SortedMap

set_option autoImplicit false

/-! A tree of folders and files as a value. Every operation answers as a file system would, and
one that fails half-way leaves what it has done until then: folders on the way to a file are
made before the file is written. -/

namespace BundleStore

inductive FileNode where
  | file (bytes : List UInt8)
  | folder
deriving DecidableEq

def FileNode.size : FileNode → Nat
  | .file bytes => bytes.length
  | .folder => 0

/-- Every file and folder but the top one, by its path. -/
structure FileTree where
  nodes : SortedMap FilePath FileNode
deriving DecidableEq

namespace FileTree

def empty : FileTree := ⟨SortedMap.empty⟩

def nameLimit : Nat := 255

def longName (name : String) : Bool := nameLimit < name.utf8ByteSize

def holdsNul (path : FilePath) : Bool := path.any (fun name => name.toList.any (· = '\x00'))

/-- What lies at the path, found one name at a time. -/
def walk (tree : FileTree) (here : FilePath) (node : FileNode) :
    List String → Except IoError FileNode
  | [] => .ok node
  | name :: rest =>
      match node with
      | .file _ => .error .notAFolder
      | .folder =>
          if name = "." then walk tree here .folder rest
          else if longName name then .error .nameTooLong
          else match tree.nodes.find? (here ++ [name]) with
            | none => .error .notFound
            | some next => walk tree (here ++ [name]) next rest

def find (tree : FileTree) (path : FilePath) : Except IoError FileNode :=
  if holdsNul path then .error .invalidName else tree.walk [] .folder path

def has (tree : FileTree) (path : FilePath) : Bool :=
  match tree.find path with
  | .ok _ => true
  | .error _ => false

def isFolder (tree : FileTree) (path : FilePath) : Bool :=
  match tree.find path with
  | .ok .folder => true
  | _ => false

def read (tree : FileTree) (path : FilePath) : Except IoError (List UInt8) :=
  match tree.find path with
  | .ok (.file bytes) => .ok bytes
  | .ok .folder => .error .isAFolder
  | .error cause => .error cause

def makeBelow (tree : FileTree) (here : FilePath) : List String → Except IoError Unit × FileTree
  | [] => (.ok (), tree)
  | name :: rest =>
      if name = "." then makeBelow tree here rest
      else if longName name then (.error .nameTooLong, tree)
      else match tree.nodes.find? (here ++ [name]) with
        | some .folder => makeBelow tree (here ++ [name]) rest
        | some (.file _) => (.error (if rest.isEmpty then .exists else .notAFolder), tree)
        | none =>
            makeBelow ⟨tree.nodes.insert (here ++ [name]) .folder⟩ (here ++ [name]) rest

/-- Makes the folder and those above it. -/
def makeFolders (tree : FileTree) (path : FilePath) : Except IoError Unit × FileTree :=
  if holdsNul path then (.error .invalidName, tree) else tree.makeBelow [] path

/-- Puts a file, written first under another name in the given folder, in its place at once. -/
def replace (tree : FileTree) (folder path : FilePath) (bytes : List UInt8) :
    Except IoError FileTree :=
  match tree.find folder with
  | .error cause => .error cause
  | .ok (.file _) => .error .notAFolder
  | .ok .folder =>
      match tree.find path with
      | .ok .folder => .error .isAFolder
      | .ok (.file _) => .ok ⟨tree.nodes.insert (path.filter (· ≠ ".")) (.file bytes)⟩
      | .error .notFound =>
          if path.getLast? = some "." then .error .notFound
          else .ok ⟨tree.nodes.insert (path.filter (· ≠ ".")) (.file bytes)⟩
      | .error cause => .error cause

/-- Makes the folders above the file, then puts it in its place. -/
def write (tree : FileTree) (path : FilePath) (bytes : List UInt8) :
    Except IoError Unit × FileTree :=
  match tree.makeFolders (FilePath.parent path) with
  | (.error cause, tree) => (.error cause, tree)
  | (.ok (), tree) =>
      match tree.replace (FilePath.parent path) path bytes with
      | .error cause => (.error cause, tree)
      | .ok tree => (.ok (), tree)

def remove (tree : FileTree) (path : FilePath) : Except IoError FileTree :=
  match tree.find path with
  | .error cause => .error cause
  | .ok .folder => .error .isAFolder
  | .ok (.file _) => .ok ⟨tree.nodes.erase path⟩

/-- Takes away whatever lies at the path, with all that lies below it. -/
def prune (tree : FileTree) (path : FilePath) : FileTree :=
  ⟨tree.nodes.filter (fun place _ => !FilePath.below path place)⟩

def copy (tree : FileTree) (source target : FilePath) : Except IoError FileTree :=
  (tree.read source).bind (tree.replace (FilePath.parent target) target)

/-- The paths of what lies below the folder, counted from the folder. -/
def under (tree : FileTree) (folder : FilePath) : List (FilePath × FileNode) :=
  tree.nodes.entries.filterMap (fun (path, node) =>
    if FilePath.below folder path ∧ path ≠ folder then some (path.drop folder.length, node)
    else none)

/-- One line per file, with its size, and one per folder that holds nothing, in order. -/
def lines (tree : FileTree) (folder : FilePath) : List String :=
  let found := tree.under folder
  let texts := found.filterMap (fun (path, node) =>
    match node with
    | .file bytes => some (String.intercalate "/" path ++ " " ++ toString bytes.length)
    | .folder =>
        if found.any (fun (other, _) => FilePath.below path other && other ≠ path) then none
        else some (String.intercalate "/" path ++ "/"))
  texts.mergeSort (fun left right => compare left right != .gt)

end FileTree

end BundleStore
