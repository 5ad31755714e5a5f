import BundleStore.Index.StringIndex

set_option autoImplicit false

/-! Where items are kept. The digits of a node's identifier spread nodes over folders of two, two
and twenty-eight digits; a property is named inside the folder of its node by the numbers of its
namespace and of its local name. -/

namespace BundleStore

namespace NodeId

def folderNames (id : NodeId) : List (List Char) :=
  [id.digits.take 2, (id.digits.drop 2).take 2, id.digits.drop 4]

/-- The separator goes before the character that is counted second, and before the fourth. -/
def parted (counted : Char × Nat) : List Char :=
  if counted.2 = 2 ∨ counted.2 = 4 then ['/', counted.1] else [counted.1]

def folderChars (id : NodeId) : List Char :=
  (id.chars.filter (· ≠ '-')).zipIdx.flatMap parted

def folder (id : NodeId) : String := String.ofList id.folderChars

def bundleFile (id : NodeId) : String := String.ofList (id.folderChars ++ ['/', 'n'])

def referencesFile (id : NodeId) : String := String.ofList (id.folderChars ++ ['/', 'r'])

end NodeId

structure StoragePaths where
  namespaces : StringIndex
  names : StringIndex
deriving DecidableEq

namespace StoragePaths

def volatile : StoragePaths :=
  ⟨StringIndex.volatile Interner.namespaces, StringIndex.volatile Interner.empty⟩

def namespacesFile : String := "namespaces.json"

def namesFile : String := "names.json"

/-- A namespace file takes the place of the given registry; the file of local names is made when
there is none. -/
def openFolder (root : Location) (registry : Interner) (tree : FileTree) :
    Except IndexError StoragePaths × FileTree :=
  let overriding := root.join namespacesFile
  let namespaces :=
    if tree.has overriding.path then StringIndex.load overriding tree
    else .ok (StringIndex.volatile registry)
  match namespaces with
  | .error cause => (.error cause, tree)
  | .ok namespaces =>
      match StringIndex.openFile (root.join namesFile) tree with
      | (.error cause, tree) => (.error cause, tree)
      | (.ok names, tree) => (.ok ⟨namespaces, names⟩, tree)

/-- The namespace is numbered first, so it keeps its number when the local name gets none. -/
def propertyChars (paths : StoragePaths) (id : PropertyId) (tree : FileTree) :
    Except IndexError (List Char) × StoragePaths × FileTree :=
  match paths.namespaces.intern id.name.namespaceUri tree with
  | (.error cause, namespaces, tree) => (.error cause, { paths with namespaces }, tree)
  | (.ok namespaceNumber, namespaces, tree) =>
      match paths.names.intern id.name.localName tree with
      | (.error cause, names, tree) => (.error cause, ⟨namespaces, names⟩, tree)
      | (.ok nameNumber, names, tree) =>
          (.ok (id.node.folderChars ++ '/' :: Nat.toDigits 10 namespaceNumber ++
            '.' :: Nat.toDigits 10 nameNumber), ⟨namespaces, names⟩, tree)

def propertyPath (paths : StoragePaths) (id : PropertyId) (tree : FileTree) :
    Except IndexError String × StoragePaths × FileTree :=
  let (chars, paths, tree) := paths.propertyChars id tree
  (chars.map String.ofList, paths, tree)

/-- One path for each place of a value. -/
def blobPath (paths : StoragePaths) (id : PropertyId) (place : Nat) (tree : FileTree) :
    Except IndexError String × StoragePaths × FileTree :=
  let (chars, paths, tree) := paths.propertyChars id tree
  (chars.map (fun chars => String.ofList (chars ++ '.' :: Nat.toDigits 10 place)), paths, tree)

def text (paths : StoragePaths) : String :=
  "StoragePaths \x7b namespaces: " ++ toString paths.namespaces.interner.size ++ ", names: " ++
    toString paths.names.interner.size ++ " \x7d"

end StoragePaths

end BundleStore
