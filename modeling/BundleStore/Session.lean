import BundleStore.Cache.Bundles
import BundleStore.Settings
import BundleStore.Storage.Files
import BundleStore.Storage.Memory

set_option autoImplicit false

/-! A repository at work: storage behind a cache, with a record of the calls that reach the
storage and of the warnings given. Calls of a kind can be made to fail without reaching it. -/

namespace BundleStore

inductive Storage where
  | memory (contents : MemoryStorage)
  /-- In memory, with a consistency check that finds nothing. -/
  | unchecked (contents : MemoryStorage)
  | files (contents : FileStorage)

namespace Storage

def files? : Storage → Option FileStorage
  | .files contents => some contents
  | _ => none

def serve : Storage → (call : StorageCall) →
    Except StorageError call.Result × Storage × List Warning
  | .memory contents, call =>
      let (result, contents) := contents.serve call
      (result, .memory contents, [])
  | .unchecked contents, .checkConsistency _ _ _ => (.ok [], .unchecked contents, [])
  | .unchecked contents, call =>
      let (result, contents) := contents.serve call
      (result, .unchecked contents, [])
  | .files contents, call =>
      let (result, contents, warnings) := contents.serve call
      (result, .files contents, warnings)

def ids : Storage → Except StorageError (List NodeId) × List Warning
  | .memory contents => (.ok contents.ids, [])
  | .unchecked contents => (.ok contents.ids, [])
  | .files contents => contents.ids

end Storage

structure Session where
  storage : Storage
  cache : BundleCache
  blobThreshold : Nat
  /-- For each kind of call that is to fail, how many still come through. -/
  faults : SortedMap String Nat
  /-- The latest call comes first. -/
  calls : List String
  /-- The latest warning comes first. -/
  warnings : List Warning

namespace Session

/-- Any spread of the nodes will do. -/
def spread (id : NodeId) : Nat := id.bytes.foldr (fun byte sum => byte.toNat + sum) 0

def start (settings : Settings) (storage : Storage) : Except RepositoryError Session :=
  match settings.validate with
  | .error cause => .error (.settings cause)
  | .ok () =>
      .ok {
        storage
        cache := BundleCache.new (UInt64.ofNat settings.cacheBytes) settings.cacheShards spread
        blobThreshold := settings.blobThreshold
        faults := SortedMap.empty
        calls := []
        warnings := [] }

/-- Calls of this kind fail after so many more have come through. -/
def failAfter (session : Session) (call : String) (count : Nat) : Session :=
  { session with faults := session.faults.insert call count }

def heal (session : Session) : Session := { session with faults := SortedMap.empty }

/-- A call that nobody records and that cannot be made to fail. -/
def direct (session : Session) (call : StorageCall) :
    Except StorageError call.Result × Session :=
  let (result, storage, warnings) := session.storage.serve call
  (result, { session with storage, warnings := warnings.reverse ++ session.warnings })

def recorded (session : Session) (call : StorageCall) :
    Except StorageError call.Result × Session :=
  match session.faults.find? call.name with
  | some 0 =>
      (.error (.injected call.name), { session with calls := (call.text ++ " !") :: session.calls })
  | some (left + 1) =>
      { session with
        calls := call.text :: session.calls
        faults := session.faults.insert call.name left }.direct call
  | none => { session with calls := call.text :: session.calls }.direct call

def serve : Task.Serve Session
  | .storage call, session => session.recorded call
  | .cache step, session =>
      let (result, cache) := session.cache.serve step
      (result, { session with cache })
  | .warn warning, session => ((), { session with warnings := warning :: session.warnings })

/-- Serves calls to the storage without a record of them. -/
def serveDirect : Task.Serve Session
  | .storage call, session => session.direct call
  | action, session => session.serve action

/-- The nodes that have a bundle in storage. -/
def ids (session : Session) : Except StorageError (List NodeId) × Session :=
  let (result, warnings) := session.storage.ids
  (result, { session with warnings := warnings.reverse ++ session.warnings })

/-- Runs a task to its end with nobody in between. -/
def run {ε α : Type} (session : Session) (task : Task ε α) : Except ε α × Session :=
  task.run serve session

def text (session : Session) : String :=
  "BundlePersistenceManager \x7b cache: " ++ session.cache.text ++ ", min_blob_size: " ++
    toString session.blobThreshold ++ " \x7d"

end Session

end BundleStore
