import BundleStore.Task.Basic
import Mathlib.Logic.Function.Basic

set_option autoImplicit false

/-! What a storage holds, and what its calls do to it, said without a word on how the storage keeps
it. A call that is answered has done all it was to do. A call that fails has done nothing, or all
of it; a check that fails has repaired nothing. A storage of any kind that keeps to this is a
backend. -/

namespace BundleStore

namespace Bundle

/-- What storage keeps of a bundle. -/
def record (bundle : Bundle) : Bundle :=
  { bundle with isNew := false, computed := SortedMap.empty }

/-- As far as it was computed, each identity property is what the header gives. -/
def Computed (bundle : Bundle) : Prop :=
  ∀ name state, bundle.computed.find? name = some state → bundle.identityState? name = some state

/-- In step with storage, so that it may be handed to any reader. -/
structure Ready (bundle : Bundle) : Prop where
  old : bundle.isNew = false
  computed : bundle.Computed

@[simp]
theorem id_record (bundle : Bundle) : bundle.record.id = bundle.id := rfl

@[simp]
theorem record_record (bundle : Bundle) : bundle.record.record = bundle.record := rfl

@[simp]
theorem record_markOld (bundle : Bundle) : bundle.markOld.record = bundle.record := rfl

theorem ready_of_record {bundle : Bundle} (recorded : bundle.record = bundle) : bundle.Ready := by
  rw [← recorded]
  constructor
  · rfl
  · intro name state found
    cases found

theorem markOld_of_record {bundle : Bundle} (recorded : bundle.record = bundle) :
    bundle.markOld = bundle := by
  rw [← recorded]
  rfl

end Bundle

/-- What a storage holds: the record of each node, the reference list of each target, the bytes of
each blob, and the blob identifiers it has given to the places of properties. Every identifier
belongs to one node, and to one place of a property. -/
@[ext]
structure Contents where
  bundles : NodeId → Option Bundle
  references : NodeId → Option References
  blobs : String → Option (List UInt8)
  slots : PropertyId → Nat → Option String
  filed : ∀ {id bundle}, bundles id = some bundle → bundle.id = id
  recorded : ∀ {id bundle}, bundles id = some bundle → bundle.record = bundle
  oneNode : ∀ {left right leftPlace rightPlace blob}, slots left leftPlace = some blob →
    slots right rightPlace = some blob → left.node = right.node
  onePlace : ∀ {property left right blob}, slots property left = some blob →
    slots property right = some blob → left = right

namespace Contents

/-- The record of one node is another one, or gone. -/
def setting (contents : Contents) (id : NodeId) (found : Option Bundle)
    (sound : ∀ {bundle}, found = some bundle → bundle.id = id ∧ bundle.record = bundle) :
    Contents :=
  have each {other : NodeId} {bundle : Bundle}
      (held : Function.update contents.bundles id found other = some bundle) :
      bundle.id = other ∧ bundle.record = bundle := by
    by_cases same : other = id
    · rw [same, Function.update_self] at held
      rw [same]
      exact sound held
    · rw [Function.update_of_ne same] at held
      exact ⟨contents.filed held, contents.recorded held⟩
  { contents with
    bundles := Function.update contents.bundles id found
    filed := fun held => (each held).1
    recorded := fun held => (each held).2 }

def holding (contents : Contents) (bundle : Bundle) : Contents :=
  contents.setting bundle.id (some bundle.record) (fun same => by
    rw [← Option.some.inj same]
    exact ⟨rfl, rfl⟩)

def without (contents : Contents) (id : NodeId) : Contents :=
  contents.setting id none (fun impossible => by cases impossible)

def withReferences (contents : Contents) (target : NodeId) (references : Option References) :
    Contents :=
  { contents with references := Function.update contents.references target references }

def withBlob (contents : Contents) (blob : String) (bytes : Option (List UInt8)) : Contents :=
  { contents with blobs := Function.update contents.blobs blob bytes }

/-- More blob identifiers may have been given; those given before stay. -/
structure Named (before after : Contents) : Prop where
  bundles : after.bundles = before.bundles
  references : after.references = before.references
  blobs : after.blobs = before.blobs
  slots : ∀ {property place blob}, before.slots property place = some blob →
    after.slots property place = some blob

/-- Records have lost child entries, and nothing else has changed. -/
structure Mended (before after : Contents) : Prop where
  references : after.references = before.references
  blobs : after.blobs = before.blobs
  slots : after.slots = before.slots
  absent : ∀ {id}, before.bundles id = none → after.bundles id = none
  present : ∀ {id bundle}, before.bundles id = some bundle → ∃ children,
    children.Sublist bundle.children ∧ after.bundles id = some { bundle with children }

end Contents

namespace StorageCall

/-- What an answered call gives back and does. -/
def Does : (call : StorageCall) → call.Result → Contents → Contents → Prop
  | .loadBundle id, found, before, after => after = before ∧ found = before.bundles id
  | .storeBundle bundle, _, before, after => after = before.holding bundle
  | .destroyBundle id, _, before, after => after = before.without id
  | .loadReferences target, found, before, after =>
      after = before ∧ found = before.references target
  | .storeReferences references, _, before, after =>
      after = before.withReferences references.target (some references)
  | .destroyReferences target, _, before, after => after = before.withReferences target none
  | .checkConsistency _ _ repair, _, before, after =>
      if repair then before.Mended after else after = before
  | .createBlobId property place, blob, before, after =>
      before.Named after ∧ after.slots property place = some blob
  | .putBlob blob bytes, _, before, after => after = before.withBlob blob (some bytes)
  | .getBlob blob, bytes, before, after => after = before ∧ before.blobs blob = some bytes
  | .removeBlob blob, there, before, after =>
      after = before.withBlob blob none ∧ there = (before.blobs blob).isSome

def isCheck : StorageCall → Bool
  | .checkConsistency _ _ _ => true
  | _ => false

/-- What a call that fails leaves behind. -/
def Fails (call : StorageCall) (before after : Contents) : Prop :=
  after = before ∨ (call.isCheck = false ∧ ∃ result, call.Does result before after)

end StorageCall

/-- Which calls may fail, with which error, over which contents. -/
abbrev Faults := StorageCall → StorageError → Contents → Prop

namespace Faults

/-- Any call may fail. -/
def any : Faults := fun _ _ _ => True

/-- A blob that is not there cannot be read, and a bundle may be too large to be written; no other
call fails. -/
def none : Faults
  | .getBlob blob, error, contents => contents.blobs blob = .none ∧ error = .blobNotFound blob
  | .storeBundle _, _, _ => True
  | _, _, _ => False

end Faults

/-- A storage that does what its calls say. -/
structure Backend where
  State : Type
  serve : (call : StorageCall) → State → Except StorageError call.Result × State
  contents : State → Contents
  answered : ∀ {call state result}, (serve call state).1 = .ok result →
    call.Does result (contents state) (contents (serve call state).2)
  failed : ∀ {call state error}, (serve call state).1 = .error error →
    call.Fails (contents state) (contents (serve call state).2)

/-- No call fails but as told. -/
def Backend.FailsOnly (backend : Backend) (faults : Faults) : Prop :=
  ∀ {call state error}, (backend.serve call state).1 = .error error →
    faults call error (backend.contents state)

theorem Backend.failsOnly_any (backend : Backend) : backend.FailsOnly Faults.any :=
  fun _failed => trivial

end BundleStore
