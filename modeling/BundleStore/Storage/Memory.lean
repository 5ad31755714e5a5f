import BundleStore.Index.StoragePaths
import BundleStore.Record.Format
import BundleStore.Record.Frame
import BundleStore.Storage.Consistency
import BundleStore.Task.Action

set_option autoImplicit false

/-! Storage in memory. Bundles are kept as records, so a bundle that is loaded shares nothing with
the one that was stored; reference lists and blobs are kept as they are. -/

namespace BundleStore

structure MemoryStorage where
  bundles : SortedMap NodeId (List UInt8)
  references : SortedMap NodeId References
  blobs : SortedMap String (List UInt8)
deriving DecidableEq

namespace MemoryStorage

def empty : MemoryStorage := ⟨SortedMap.empty, SortedMap.empty, SortedMap.empty⟩

def ids (storage : MemoryStorage) : List NodeId := storage.bundles.keys

def loadBundle (storage : MemoryStorage) (id : NodeId) : Except StorageError (Option Bundle) :=
  match storage.bundles.find? id with
  | none => .ok none
  | some bytes => (Record.decode Record.bundle bytes id.text).map some

def storeBundle (storage : MemoryStorage) (bundle : Bundle) :
    Except StorageError Unit × MemoryStorage :=
  match Record.encode Record.bundle bundle with
  | .error cause => (.error cause, storage)
  | .ok bytes => (.ok (), { storage with bundles := storage.bundles.insert bundle.id bytes })

/-- One blob for each place of a value, named by the folder of the node and the property. -/
def blobIdChars (property : PropertyId) (place : Nat) : List Char :=
  property.node.folderChars ++ '/' :: property.name.chars ++ '.' :: Nat.toDigits 10 place

def blobId (property : PropertyId) (place : Nat) : String :=
  String.ofList (blobIdChars property place)

def getBlob (storage : MemoryStorage) (blob : String) : Except StorageError (List UInt8) :=
  match storage.blobs.find? blob with
  | some bytes => .ok bytes
  | none => .error (.blobNotFound blob)

/-- Visits what is pending, the top of the stack first, for a bounded number of steps. A bundle that
cannot be read ends the check. -/
def visit (recursive mend : Bool) :
    Nat → Visit → MemoryStorage → Except StorageError (List Problem) × MemoryStorage
  | 0, visited, storage => (.ok visited.problems, storage)
  | bound + 1, visited, storage =>
      match visited.pending with
      | [] => (.ok visited.problems, storage)
      | id :: pending =>
          if visited.seen.contains id then
            visit recursive mend bound { visited with pending } storage
          else
            let seen := SortedSet.add visited.seen id
            match storage.loadBundle id with
            | .error cause => (.error cause, storage)
            | .ok none =>
                visit recursive mend bound
                  ⟨pending, seen, visited.problems ++ [.missing id]⟩ storage
            | .ok (some bundle) =>
                let pass := Pass.entries storage.bundles.contains recursive mend id bundle pending
                  visited.problems
                let (result, storage) :=
                  if pass.dirty then storage.storeBundle pass.repaired else (.ok (), storage)
                match result with
                | .error cause => (.error cause, storage)
                | .ok () =>
                    visit recursive mend bound ⟨pass.pending, seen, pass.problems⟩ storage

/-- Every step takes a node that was asked for or a child entry, and a child entry takes more
than one byte of a record. -/
def visitBound (storage : MemoryStorage) (ids : List NodeId) : Nat :=
  ids.length + storage.bundles.values.foldr (fun bytes sum => bytes.length + sum) 0 + 1

/-- Nodes are taken from the end of the list. -/
def check (storage : MemoryStorage) (ids : List NodeId) (recursive repair : Bool) :
    Except StorageError (List Problem) × MemoryStorage :=
  let ids := if ids.isEmpty then storage.ids else ids
  visit recursive repair (storage.visitBound ids) ⟨ids.reverse, SortedMap.empty, []⟩ storage

def serve (storage : MemoryStorage) :
    (call : StorageCall) → Except StorageError call.Result × MemoryStorage
  | .loadBundle id => (storage.loadBundle id, storage)
  | .storeBundle bundle => storage.storeBundle bundle
  | .destroyBundle id => (.ok (), { storage with bundles := storage.bundles.erase id })
  | .loadReferences target => (.ok (storage.references.find? target), storage)
  | .storeReferences references =>
      (.ok (), { storage with
        references := storage.references.insert references.target references })
  | .destroyReferences target =>
      (.ok (), { storage with references := storage.references.erase target })
  | .checkConsistency ids recursive repair => storage.check ids recursive repair
  | .createBlobId property place => (.ok (blobId property place), storage)
  | .putBlob blob bytes => (.ok (), { storage with blobs := storage.blobs.insert blob bytes })
  | .getBlob blob => (storage.getBlob blob, storage)
  | .removeBlob blob =>
      (.ok (storage.blobs.contains blob), { storage with blobs := storage.blobs.erase blob })

def blobBytes (storage : MemoryStorage) : Nat :=
  storage.blobs.values.foldr (fun bytes sum => bytes.length + sum) 0

end MemoryStorage

end BundleStore
