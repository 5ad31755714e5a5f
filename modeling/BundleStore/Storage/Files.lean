import BundleStore.Record.Format
import BundleStore.Record.Frame
import BundleStore.Storage.Blobs
import BundleStore.Storage.Consistency
import BundleStore.Task.Action

set_option autoImplicit false

/-! Storage in files below a root: one record for each bundle and each reference list, inside the
folder of its node, and one file for each blob. A record is put in its place at once. -/

namespace BundleStore

structure FileStorage where
  root : Location
  blobs : BlobFolder
deriving DecidableEq

namespace FileStorage

def tree (storage : FileStorage) : FileTree := storage.blobs.tree

def setTree (storage : FileStorage) (tree : FileTree) : FileStorage :=
  { storage with blobs := { storage.blobs with tree } }

def bundles (storage : FileStorage) : Location := storage.root.join "bundles"

def bundlePath (storage : FileStorage) (id : NodeId) : FilePath :=
  FilePath.resolve storage.bundles.path id.bundleFile

def referencesPath (storage : FileStorage) (id : NodeId) : FilePath :=
  FilePath.resolve storage.bundles.path id.referencesFile

/-- Makes what is not there yet; files made before a failure stay. -/
def openRoot (root : Location) (registry : Interner) (tree : FileTree) :
    Except RepositoryError FileStorage × FileTree :=
  match tree.makeFolders root.path with
  | (.error cause, tree) => (.error (.storage (.io cause)), tree)
  | (.ok (), tree) =>
      match StoragePaths.openFolder root registry tree with
      | (.error cause, tree) => (.error (.settings (.index cause)), tree)
      | (.ok paths, tree) =>
          match tree.makeFolders (root.join "bundles").path with
          | (.error cause, tree) => (.error (.storage (.io cause)), tree)
          | (.ok (), tree) =>
              let folder := (root.join "blobs").path
              match tree.makeFolders folder with
              | (.error cause, tree) => (.error (.storage (.io cause)), tree)
              | (.ok (), tree) => (.ok ⟨root, ⟨folder, paths, tree⟩⟩, tree)

def readRecord (storage : FileStorage) (path : FilePath) :
    Except StorageError (Option (List UInt8)) :=
  match storage.tree.read path with
  | .ok bytes => .ok (some bytes)
  | .error .notFound => .ok none
  | .error cause => .error (.io cause)

def writeRecord (storage : FileStorage) (path : FilePath) (bytes : List UInt8) :
    Except StorageError Unit × FileStorage :=
  let (result, tree) := storage.tree.write path bytes
  (result.mapError StorageError.io, storage.setTree tree)

def removeRecord (storage : FileStorage) (path : FilePath) :
    Except StorageError Unit × FileStorage :=
  match storage.tree.remove path with
  | .ok tree => (.ok (), storage.setTree tree)
  | .error .notFound => (.ok (), storage)
  | .error cause => (.error (.io cause), storage)

def loadBundle (storage : FileStorage) (id : NodeId) : Except StorageError (Option Bundle) :=
  match storage.readRecord (storage.bundlePath id) with
  | .error cause => .error cause
  | .ok none => .ok none
  | .ok (some bytes) => (Record.decode Record.bundle bytes ("bundle " ++ id.text)).map some

def storeBundle (storage : FileStorage) (bundle : Bundle) :
    Except StorageError Unit × FileStorage :=
  match Record.encode Record.bundle bundle with
  | .error cause => (.error cause, storage)
  | .ok bytes => storage.writeRecord (storage.bundlePath bundle.id) bytes

def loadReferences (storage : FileStorage) (target : NodeId) :
    Except StorageError (Option References) :=
  match storage.readRecord (storage.referencesPath target) with
  | .error cause => .error cause
  | .ok none => .ok none
  | .ok (some bytes) =>
      (Record.decode Record.references bytes ("references " ++ target.text)).map some

def storeReferences (storage : FileStorage) (references : References) :
    Except StorageError Unit × FileStorage :=
  match Record.encode Record.references references with
  | .error cause => (.error cause, storage)
  | .ok bytes => storage.writeRecord (storage.referencesPath references.target) bytes

/-- The joined names of the folders are read as one number in base sixteen, which may be written
with a plus sign in front. -/
def idOfFolders? (folders : List String) : Option NodeId :=
  match folders.flatMap String.toList with
  | '+' :: digits => if digits.length = 31 then NodeId.ofDigits? ('0' :: digits) else none
  | digits => NodeId.ofDigits? digits

inductive Listed where
  | record (id : NodeId)
  | stray (path : FilePath)

/-- Everything named as a bundle record, four levels down. -/
def listed (storage : FileStorage) : List Listed :=
  (storage.tree.under storage.bundles.path).filterMap (fun (path, _) =>
    match path with
    | [first, second, third, "n"] =>
        match idOfFolders? [first, second, third] with
        | some id => some (.record id)
        | none => some (.stray path)
    | _ => none)

def Listed.id? : Listed → Option NodeId
  | .record id => some id
  | .stray _ => none

def Listed.path? : Listed → Option FilePath
  | .record _ => none
  | .stray path => some path

/-- The nodes that have a record, in order, and a warning for each file that names none. -/
def ids (storage : FileStorage) : Except StorageError (List NodeId) × List Warning :=
  match storage.tree.find storage.bundles.path with
  | .error cause => (.error (.io cause), [])
  | .ok _ =>
      let listed := storage.listed
      (.ok ((listed.filterMap Listed.id?).mergeSort (fun left right => compare left right != .gt)),
        (listed.filterMap Listed.path?).map (fun path =>
          .strayFile (storage.bundles.shown ++ "/" ++ String.intercalate "/" path)))

/-- What there is to say of the blobs of a bundle: each that cannot be fetched. -/
def blobProblems (storage : FileStorage) (id : NodeId) (bundle : Bundle) : List Problem :=
  bundle.blobs.filterMap (fun blob =>
    match storage.blobs.get blob with
    | .ok _ => none
    | .error cause => some (.blob id blob cause))

/-- Visits what is pending, the top of the stack first, for a bounded number of steps. A bundle that
cannot be read is a finding, and the check goes on. -/
def visit (recursive mend : Bool) :
    Nat → Visit → FileStorage → Except StorageError (List Problem) × FileStorage
  | 0, visited, storage => (.ok visited.problems, storage)
  | bound + 1, visited, storage =>
      match visited.pending with
      | [] => (.ok visited.problems, storage)
      | id :: pending =>
          if visited.seen.contains id then
            visit recursive mend bound { visited with pending } storage
          else
            let seen := SortedSet.add visited.seen id
            match storage.loadBundle id with
            | .ok none =>
                visit recursive mend bound
                  ⟨pending, seen, visited.problems ++ [.missing id]⟩ storage
            | .error cause =>
                visit recursive mend bound
                  ⟨pending, seen, visited.problems ++ [.unreadable id cause]⟩ storage
            | .ok (some bundle) =>
                let pass := Pass.entries (fun child => storage.tree.has (storage.bundlePath child))
                  recursive mend id bundle pending visited.problems
                let problems := pass.problems ++ storage.blobProblems id bundle
                let (result, storage) :=
                  if pass.dirty then storage.storeBundle pass.repaired else (.ok (), storage)
                match result with
                | .error cause => (.error cause, storage)
                | .ok () => visit recursive mend bound ⟨pass.pending, seen, problems⟩ storage

/-- A repair may write one more record for each that it reads, of no greater length. -/
def visitBound (storage : FileStorage) (ids : List NodeId) : Nat :=
  ids.length + 1 + 2 * storage.tree.nodes.values.foldr (fun node sum => node.size + sum) 0

/-- Nodes are taken from the end of the list. -/
def check (storage : FileStorage) (ids : List NodeId) (recursive repair : Bool) :
    Except StorageError (List Problem) × FileStorage × List Warning :=
  let (found, warnings) := if ids.isEmpty then storage.ids else (.ok ids, [])
  match found with
  | .error cause => (.error cause, storage, warnings)
  | .ok ids =>
      let (result, storage) :=
        visit recursive repair (storage.visitBound ids) ⟨ids.reverse, SortedMap.empty, []⟩ storage
      (result, storage, warnings)

def onBlobs {α : Type} (storage : FileStorage) (answer : α × BlobFolder) : α × FileStorage :=
  (answer.1, { storage with blobs := answer.2 })

def serve (storage : FileStorage) :
    (call : StorageCall) → Except StorageError call.Result × FileStorage × List Warning
  | .loadBundle id => (storage.loadBundle id, storage, [])
  | .storeBundle bundle => quiet (storage.storeBundle bundle)
  | .destroyBundle id => quiet (storage.removeRecord (storage.bundlePath id))
  | .loadReferences target => (storage.loadReferences target, storage, [])
  | .storeReferences references => quiet (storage.storeReferences references)
  | .destroyReferences target => quiet (storage.removeRecord (storage.referencesPath target))
  | .checkConsistency ids recursive repair => storage.check ids recursive repair
  | .createBlobId property place => quiet (storage.onBlobs (storage.blobs.createId property place))
  | .putBlob blob bytes => quiet (storage.onBlobs (storage.blobs.put blob bytes))
  | .getBlob blob => (storage.blobs.get blob, storage, [])
  | .removeBlob blob => quiet (storage.onBlobs (storage.blobs.remove blob))
where
  quiet {α : Type} (answer : α × FileStorage) : α × FileStorage × List Warning :=
    (answer.1, answer.2, [])

end FileStorage

end BundleStore
