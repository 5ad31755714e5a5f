import BundleStore.Proofs.Store.Meaning
import BundleStore.Proofs.Storage.Memory

set_option autoImplicit false

/-! What bundles look like, wherever they are found. A bundle is the one of the node under which it
is kept, it holds no identity properties, every entry is the one of its name, and every blob is
named for the entry's property and the place of the value. This holds of all records and of all
that is cached, however many calls have failed on the way. -/

namespace BundleStore

/-- A backend whose calls may be turned down, each as it is told for its turn; a call that is turned
down does nothing. -/
def Backend.faltering (backend : Backend) : Backend where
  State := backend.State × (Nat → Bool)
  serve := fun call (state, refuses) =>
    let later := fun turn => refuses (turn + 1)
    if refuses 0 then (.error (.injected call.name), state, later)
    else ((backend.serve call state).1, (backend.serve call state).2, later)
  contents := fun (state, _refuses) => backend.contents state
  answered := by
    intro call state result
    dsimp only
    split
    · intro impossible
      cases impossible
    · exact backend.answered
  failed := by
    intro call state error
    dsimp only
    split
    · exact fun _failed => Or.inl rfl
    · exact backend.failed

/-- Without refusals it is the backend itself. -/
theorem Backend.faltering_steady (backend : Backend) (call : StorageCall) (state : backend.State) :
    backend.faltering.serve call (state, fun _turn => false) =
      ((backend.serve call state).1, (backend.serve call state).2, fun _turn => false) := rfl

/-- In keeping with itself, as a bundle of the node in memory. -/
structure Bundle.Regular (id : NodeId) (bundle : Bundle) : Prop where
  named : bundle.id = id
  plain : ∀ name ∈ Bundle.identityNames, bundle.properties.find? name = none
  entries : ∀ {name stored}, bundle.properties.find? name = some stored → stored.id = ⟨id, name⟩
  blobs : ∀ {name stored}, bundle.properties.find? name = some stored →
    ∀ {place blob length}, stored.values[place]? = some (.blob blob length) →
      blob = MemoryStorage.blobId stored.id place

namespace Bundle

variable {id : NodeId} {bundle : Bundle}

/-- What storage does not keep of a bundle plays no part. -/
theorem Regular.of_record (regular : bundle.record.Regular id) : bundle.Regular id :=
  ⟨regular.named, regular.plain, regular.entries, regular.blobs⟩

theorem isIdentity_of_mem {name : Name} (member : name ∈ identityNames) : name.isIdentity = true := by
  have all : ∀ name ∈ identityNames, name.isIdentity = true := by decide
  exact all name member

end Bundle

namespace MemoryStorage

theorem regular_of_proper (storage : Kept) (proper : (contents storage).Proper) {id : NodeId}
    {bundle : Bundle} (held : storage.1.bundle? id = some bundle) : bundle.Regular id := by
  have own {name : Name} {stored : StoredProperty}
      (found : bundle.properties.find? name = some stored) :
      stored.Own (contents storage) ⟨id, name⟩ := by
    apply proper ⟨id, name⟩ stored
    rw [entryOf_of_some (show (contents storage).bundles id = some bundle from held)]
    exact found
  refine ⟨(storage.2.bundle? held).1, fun name member => ?_, fun found => (own found).id, ?_⟩
  · rw [Option.eq_none_iff_forall_ne_some]
    intro stored found
    have plain := (own found).plain
    rw [Bundle.isIdentity_of_mem member] at plain
    cases plain
  · intro name stored found place blob length given
    have slot := (own found).slots given
    rw [(own found).id]
    exact (Option.some.inj slot).symm

end MemoryStorage

namespace System

/-- Whatever has been asked of the repository, and whatever has failed: all that is in storage can
be read, and all that is in storage or in the cache is regular. -/
theorem regular_of_reachable (system : System MemoryStorage.backend.faltering)
    (reachable : system.Reachable) :
    (∀ id bytes, system.storage.1.1.bundles.find? id = some bytes →
      ∃ bundle, Record.decode Record.bundle bytes id.text = .ok bundle ∧ bundle.Regular id) ∧
    (∀ id bundle, system.cache.held? id = some (.present bundle) →
      bundle.Regular id ∧ bundle.isNew = false) := by
  obtain ⟨rest, proper⟩ := reachable.atRest
  have regular {id : NodeId} {bundle : Bundle}
      (held : system.storage.1.1.bundle? id = some bundle) : bundle.Regular id :=
    MemoryStorage.regular_of_proper system.storage.1 proper held
  refine ⟨fun id bytes found => ?_, fun id bundle held => ?_⟩
  · obtain ⟨bundle, named, recorded, encoded⟩ := system.storage.1.2 id bytes found
    have loaded := MemoryStorage.loadBundle_record found encoded
    rw [recorded] at loaded
    have present : system.storage.1.1.bundle? id = some bundle := by
      rw [MemoryStorage.bundle?, loaded]
      rfl
    refine ⟨bundle, ?_, regular present⟩
    rw [Record.decode_encode (Record.bundle_yields bundle) encoded, recorded]
  · have tells : system.storage.1.1.bundle? id = some bundle.record :=
      rest.tells held (fun behind => behind)
    exact ⟨(regular tells).of_record, (rest.filed held).2.old⟩

/-! ### A store that is made again -/

/-- The third call is turned down. -/
def hindered : System MemoryStorage.backend.faltering :=
  fresh ((⟨MemoryStorage.empty, MemoryStorage.empty_sound⟩ : MemoryStorage.Kept),
    fun turn => turn = 2) 100000 1 (fun _ => 0)

def nextLetterLog : ChangeLog :=
  { ChangeLog.empty with modified := [.property (Property.single letter (.binary [4, 5, 6]))] }

def afterWrites (logs : List ChangeLog) : System MemoryStorage.backend.faltering :=
  logs.foldl (fun system log => (((Write.store log).task 2).run serve system).2) hindered

/-- The bundle that is cached for the node. -/
def cached? (system : System MemoryStorage.backend.faltering) (id : NodeId) : Option Bundle :=
  match system.cache.held? id with
  | some (.present bundle) => some bundle
  | _ => none

theorem afterWrites_reachable (logs : List ChangeLog) : (afterWrites logs).Reachable := by
  have start : hindered.Reachable :=
    .empty ⟨fun _id => rfl, fun _target => rfl, fun _blob => rfl⟩ 100000 1 (fun _ => 0)
  unfold afterWrites
  generalize hindered = system at start
  induction logs generalizing system with
  | nil => exact start
  | cons log rest ih => exact ih _ (start.write 2 (.store log))

set_option maxRecDepth 2500 in
/-- The first letter cannot be stored at once; the next one is in storage and in the cache. -/
theorem letter_regular :
    ((Repository.store 2 letterLog).run serve hindered).1 =
        .error (.storage (.injected "store_bundle")) ∧
      ∃ system : System MemoryStorage.backend.faltering, system.Reachable ∧
        ∃ bundle, system.cache.held? NodeId.zero = some (.present bundle) ∧
          bundle.blobs = ["00/00/0000000000000000000000000000/letter.0"] ∧
          bundle.Regular NodeId.zero ∧ bundle.isNew = false := by
  have fails : ((Repository.store 2 letterLog).run serve hindered).1 =
      .error (.storage (.injected "store_bundle")) := by decide +kernel
  let system := afterWrites [letterLog, letterLog, nextLetterLog]
  have blobs : (system.cached? NodeId.zero).map Bundle.blobs =
      some ["00/00/0000000000000000000000000000/letter.0"] := by decide +kernel
  obtain ⟨bundle, cached, named⟩ := Option.map_eq_some_iff.mp blobs
  have held : system.cache.held? NodeId.zero = some (.present bundle) := by
    unfold cached? at cached
    split at cached
    · rename_i entry
      cases cached
      exact entry
    · cases cached
  obtain ⟨_stored, filed⟩ := regular_of_reachable system (afterWrites_reachable _)
  exact ⟨fails, system, afterWrites_reachable _, bundle, held, named, filed NodeId.zero bundle held⟩

end System

end BundleStore
