import BundleStore.Proofs.Storage.Blobs
import BundleStore.Proofs.Storage.Repairs
import BundleStore.Proofs.Storage.Shelves

set_option autoImplicit false

/-! Records that are no records. Where the files themselves can be read, a record that cannot be
loaded is one whose bytes do not decode. A check that mends nothing goes on to its end whatever bytes
it comes to, and has one line for each such record. -/

namespace BundleStore

/-- The node and the fault, if the line is on a record that cannot be read. -/
def Problem.unreadable? : Problem → Option (NodeId × StorageError)
  | .unreadable id cause => some (id, cause)
  | _ => none

theorem Problem.mem_unreadable? {problems : List Problem} {id : NodeId} {cause : StorageError} :
    .unreadable id cause ∈ problems ↔ (id, cause) ∈ problems.filterMap Problem.unreadable? := by
  rw [List.mem_filterMap]
  constructor
  · exact fun member => ⟨_, member, rfl⟩
  · rintro ⟨problem, member, found⟩
    cases problem with
    | unreadable other fault =>
        cases found
        exact member
    | _ => cases found

namespace FileStorage

variable {storage : FileStorage} {recursive : Bool} {ids : List NodeId} {id : NodeId}
  {cause : StorageError}

/-- To read the file of a record fails only where there is none. -/
def Readable (storage : FileStorage) : Prop :=
  ∀ id cause, storage.tree.read (storage.bundlePath id) = .error cause → cause = .notFound

/-- The file of the node's record holds bytes that do not decode. -/
def Undecodable (storage : FileStorage) (id : NodeId) (cause : StorageError) : Prop :=
  ∃ bytes, storage.tree.read (storage.bundlePath id) = .ok bytes ∧
    Record.decode Record.bundle bytes ("bundle " ++ id.text) = .error cause

/-- Where nothing but records has been put, whatever bytes they hold, records can be looked for. -/
theorem Shelved.readable (shelved : Shelved storage.root storage.tree) : storage.Readable := by
  intro id cause failed
  have read := shelved.read (Piece.Record.bundle id)
  rw [← bundlePath_eq, readRecord, failed] at read
  cases cause with
  | notFound => rfl
  | _ => cases read

theorem stored_of_read {bytes : List UInt8}
    (read : storage.tree.read (storage.bundlePath id) = .ok bytes) :
    (Storage.files storage).stored id = true := by
  rw [Storage.stored]
  exact FileTree.has_of_readable (by rw [FileTree.bytes?, read]; rfl)

theorem not_stored_of_notFound
    (read : storage.tree.read (storage.bundlePath id) = .error .notFound) :
    (Storage.files storage).stored id = false := by
  rw [Storage.stored, FileTree.has]
  rw [FileTree.read] at read
  split at read
  · cases read
  · cases read
  · rename_i found
    rw [found]

theorem Readable.loads (readable : storage.Readable) (id : NodeId) :
    ((Storage.files storage).stored id = false ∧
        storage.tree.read (storage.bundlePath id) = .error .notFound ∧
        storage.loadBundle id = .ok none) ∨
      ∃ bytes, (Storage.files storage).stored id = true ∧
        storage.tree.read (storage.bundlePath id) = .ok bytes ∧ storage.loadBundle id =
          (Record.decode Record.bundle bytes ("bundle " ++ id.text)).map some := by
  rw [loadBundle, readRecord]
  cases read : storage.tree.read (storage.bundlePath id) with
  | error cause =>
      obtain rfl := readable id cause read
      exact Or.inl ⟨not_stored_of_notFound read, rfl, rfl⟩
  | ok bytes => exact Or.inr ⟨bytes, stored_of_read read, rfl, rfl⟩

theorem Readable.failed_iff (readable : storage.Readable) :
    storage.loadBundle id = .error cause ↔ storage.Undecodable id cause := by
  rw [Undecodable]
  rcases readable.loads id with ⟨_absent, read, loads⟩ | ⟨bytes, _stored, read, loads⟩
  · rw [loads, read]
    simp
  · rw [loads, read]
    cases decoded : Record.decode Record.bundle bytes ("bundle " ++ id.text) with
    | error fault => simp [Except.map, decoded]
    | ok found => simp [Except.map, decoded]

theorem Readable.stored_of_loaded (readable : storage.Readable) {found : Option Bundle}
    (loaded : storage.loadBundle id = .ok found) :
    (Storage.files storage).stored id = found.isSome := by
  rcases readable.loads id with ⟨absent, _read, loads⟩ | ⟨bytes, stored, _read, loads⟩
  · rw [absent]
    rw [loads] at loaded
    cases loaded
    rfl
  · rw [stored]
    rw [loads] at loaded
    cases decoded : Record.decode Record.bundle bytes ("bundle " ++ id.text) with
    | error cause =>
        rw [decoded] at loaded
        cases loaded
    | ok bundle =>
        rw [decoded] at loaded
        cases loaded
        rfl

/-! ### What a check reports -/

/-- Of the records that a check comes to, those that cannot be read have one line each. -/
structure Reports (storage : FileStorage) (recursive : Bool) (ids : List NodeId)
    (problems : List Problem) : Prop where
  once : ((problems.filterMap Problem.unreadable?).map Prod.fst).Nodup
  each : ∀ id cause, .unreadable id cause ∈ problems ↔
    (Storage.files storage).Visits recursive ids id ∧ storage.Undecodable id cause

/-- The node and the fault, if its record cannot be loaded. -/
def failing? (storage : FileStorage) (id : NodeId) : Option (NodeId × StorageError) :=
  match storage.loadBundle id with
  | .error cause => some (id, cause)
  | .ok _ => none

theorem failing?_eq_some {other : NodeId} :
    storage.failing? id = some (other, cause) ↔ id = other ∧ storage.loadBundle id = .error cause := by
  rw [failing?]
  cases storage.loadBundle id with
  | error fault => simp
  | ok found => simp

theorem findings_unreadable? (storage : FileStorage) (id : NodeId) :
    (inspection.findings storage id).filterMap Problem.unreadable? =
      (storage.failing? id).toList := by
  rw [failing?, Inspection.findings, inspection_load]
  rcases storage.loadBundle id with cause | none | bundle
  · rfl
  · rfl
  · dsimp only
    rw [Option.toList_none, Inspection.problemsOf, List.filterMap_eq_nil_iff]
    intro problem listed
    rcases List.mem_append.mp listed with child | blob
    · obtain ⟨entry, _dangling, rfl⟩ := List.mem_map.mp child
      rfl
    · obtain ⟨stored, _listed, fault⟩ := List.mem_filterMap.mp blob
      obtain ⟨cause, _fault, rfl⟩ := Option.map_eq_some_iff.mp fault
      rfl

theorem Readable.reports (readable : storage.Readable) {order : List NodeId}
    (distinct : order.Nodup)
    (visited : ∀ id, id ∈ order ↔ (Storage.files storage).Visits recursive ids id) :
    storage.Reports recursive ids (order.flatMap (inspection.findings storage)) := by
  have unread : (order.flatMap (inspection.findings storage)).filterMap Problem.unreadable? =
      order.filterMap storage.failing? := by
    rw [List.filterMap_flatMap, List.filterMap_eq_flatMap_toList]
    exact congrArg (order.flatMap ·) (funext storage.findings_unreadable?)
  constructor
  · rw [unread, List.map_filterMap]
    refine distinct.filterMap (fun left right id first second => ?_)
    obtain ⟨⟨_, _⟩, early, rfl⟩ := Option.map_eq_some_iff.mp first
    obtain ⟨⟨_, _⟩, late, rfl⟩ := Option.map_eq_some_iff.mp second
    rw [(failing?_eq_some.mp early).1, (failing?_eq_some.mp late).1]
  · intro id cause
    rw [Problem.mem_unreadable?, unread, List.mem_filterMap, ← visited, ← readable.failed_iff]
    simp only [failing?_eq_some]
    constructor
    · rintro ⟨other, member, rfl, failed⟩
      exact ⟨member, failed⟩
    · rintro ⟨member, failed⟩
      exact ⟨id, member, rfl, failed⟩

/-- Whatever bytes the records hold, a check that mends nothing comes to its end. -/
theorem check_sweeps (closed : storage.tree.Closed) (walked : ∃ found, storage.ids.1 = .ok found)
    (ids : List NodeId) (recursive : Bool) :
    ∃ problems warnings order,
      storage.check ids recursive false = (.ok problems, storage, warnings) ∧
      inspection.Sweep recursive false ((Storage.files storage).asked ids) storage storage problems
        order := by
  have listed : (Storage.files storage).asked ids =
      (if ids.isEmpty then storage.ids else (.ok ids, [])).1.toOption.getD [] := by
    rw [Storage.asked]
    split <;> rfl
  rw [check]
  rcases found : (if ids.isEmpty then storage.ids else (.ok ids, [])) with ⟨cause | wanted, warnings⟩
  · obtain ⟨all, walked⟩ := walked
    split at found
    · rw [found] at walked
      cases walked
    · cases found
  · rw [found] at listed
    obtain rfl : (Storage.files storage).asked ids = wanted := listed
    have mends : false = true →
        inspection.Mendable (fun storage => storage.tree.Closed) unvisited :=
      fun impossible => absurd impossible Bool.false_ne_true
    obtain ⟨problems, after, order, checked, _closed, _loop, _plain, sweep⟩ :=
      inspection_bounded.check (visit_follows recursive false) mends closed
        ((Storage.files storage).asked ids) (storage.unvisited_lt_visitBound _)
    obtain rfl := sweep.kept rfl
    refine ⟨problems, warnings, order, ?_, sweep⟩
    dsimp only
    rw [checked]

theorem check_completes (closed : storage.tree.Closed) (readable : storage.Readable)
    (walked : ∃ found, storage.ids.1 = .ok found) (ids : List NodeId) (recursive : Bool) :
    ∃ problems warnings, storage.check ids recursive false = (.ok problems, storage, warnings) ∧
      storage.Reports recursive ids problems := by
  obtain ⟨problems, warnings, order, checked, sweep⟩ := check_sweeps closed walked ids recursive
  have visited (id : NodeId) : id ∈ order ↔ (Storage.files storage).Visits recursive ids id :=
    (sweep.visited id).trans (Storage.shows_files storage).visits
  refine ⟨problems, warnings, checked, ?_⟩
  rw [sweep.problems]
  exact readable.reports sweep.distinct visited

/-- The nodes of a repository that has been opened can be listed. -/
theorem openRoot_walked {root : Location} {registry : Interner} {tree after : FileTree}
    (closed : tree.Closed) (opened : openRoot root registry tree = (.ok storage, after)) :
    storage.tree = after ∧ storage.tree.Closed ∧ ∃ found, storage.ids.1 = .ok found := by
  have whole := (openRoot_keepsBlobs closed opened).closed
  obtain ⟨rooted, numbered, shelved, paths, rooting, numbering, shelving, stocking, rfl⟩ :=
    openRoot_eq_ok opened
  have first := FileTree.makeFolders_grown closed root.path
  rw [rooting] at first
  have second := (openFolder_files first.closed numbering).2.2
  have third := FileTree.makeFolders_grown second (root.join "bundles").path
  rw [shelving] at third
  have fourth := FileTree.makeFolders_grown third.closed (root.join "blobs").path
  rw [stocking] at fourth
  have undotted : "." ∉ (root.join "bundles").path :=
    FilePath.Plain.undotted (by decide) root.path
  obtain ⟨spoken, made⟩ := FileTree.makeFolders_made shelving
  rw [FilePath.base_of_undotted undotted] at made
  have found : after.find (root.join "bundles").path = .ok .folder :=
    (FileTree.find_ok whole undotted).mpr ⟨spoken, fourth.folders _ made⟩
  refine ⟨rfl, whole, ?_⟩
  have listable : (FileStorage.mk root ⟨(root.join "blobs").path, paths, after⟩).tree.find
      (FileStorage.bundles ⟨root, ⟨(root.join "blobs").path, paths, after⟩⟩).path = .ok .folder :=
    found
  rw [ids, listable]
  exact ⟨_, rfl⟩

end FileStorage

end BundleStore
