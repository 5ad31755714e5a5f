import BundleStore.Proofs.Storage.Files
import BundleStore.Proofs.Storage.Inspections
import BundleStore.Proofs.Storage.Visits
import BundleStore.Session

set_option autoImplicit false

/-! Repairs of storage in memory and of storage in files. Where every record that can be read is the
one of its node, a repair fails before it has begun or not at all, and it leaves of each record that
it comes to the entries for stored nodes. Records that cannot be read do not keep it from the
others. -/

namespace BundleStore

/-! ### In memory -/

namespace MemoryStorage

variable {storage : MemoryStorage} {id : NodeId} {bundle : Bundle}

theorem Sound.loaded (sound : storage.Sound) (loaded : storage.loadBundle id = .ok (some bundle)) :
    bundle.id = id ∧ bundle.record = bundle ∧ ∃ bytes, storage.bundles.find? id = some bytes ∧
      Record.encode Record.bundle bundle = .ok bytes := by
  cases found : storage.bundles.find? id with
  | none =>
      rw [loadBundle_absent found] at loaded
      cases loaded
  | some bytes =>
      obtain ⟨written, named, recorded, encoded⟩ := sound id bytes found
      rw [loadBundle_record found encoded, recorded] at loaded
      cases loaded
      exact ⟨named, recorded, bytes, rfl, encoded⟩

theorem replaced_insert {bytes : List UInt8} (recorded : bundle.record = bundle)
    (there : storage.bundles.contains bundle.id = true)
    (encoded : Record.encode Record.bundle bundle = .ok bytes) :
    inspection.Replaced bundle storage
      { storage with bundles := storage.bundles.insert bundle.id bytes } := by
  refine ⟨funext fun other => ?_, rfl, fun other => ?_⟩
  · change (storage.bundles.insert bundle.id bytes).contains other = storage.bundles.contains other
    rw [Bool.eq_iff_iff, SortedMap.contains_insert]
    exact ⟨fun either => either.elim (fun same => same ▸ there) id, Or.inr⟩
  · change loadBundle _ other = if other = bundle.id then _ else storage.loadBundle other
    split
    · rename_i same
      rw [same, loadBundle_record (SortedMap.find?_insert_self ..) encoded, recorded]
    · rename_i differs
      exact loadBundle_congr (SortedMap.find?_insert_of_ne _ differs bytes)

theorem inspection_lawful : inspection.Lawful Sound unvisited where
  named sound loaded := (sound.loaded loaded).1
  bearable := by
    intro storage id cause sound failed
    rcases sound.loads id with absent | ⟨_bundle, _named, _recorded, loaded, _encoded⟩
    · cases absent.symm.trans failed
    · cases loaded.symm.trans failed
  replaces := by
    intro storage bundle children sound loaded fewer
    obtain ⟨_named, recorded, bytes, found, encoded⟩ := sound.loaded loaded
    obtain ⟨shorter, fits⟩ := encode_fewer fewer encoded
    have written : ({ bundle with children } : Bundle).record = { bundle with children } := by
      rw [← recorded]
      rfl
    have there : storage.bundles.contains bundle.id = true := by
      rw [SortedMap.contains, found]
      rfl
    have still : Sound { storage with
        bundles := storage.bundles.insert ({ bundle with children } : Bundle).id shorter } :=
      sound.insert fits
    exact ⟨{ storage with bundles := storage.bundles.insert bundle.id shorter },
      storeBundle_fits fits, still, replaced_insert written there fits, fun seen visited =>
        Nat.le_of_eq (storage.unvisited_insert shorter visited)⟩
  lighter := unvisited_add_le
  weighed := by
    intro storage seen id bundle sound loaded unseen
    obtain ⟨_named, _recorded, bytes, found, encoded⟩ := sound.loaded loaded
    have longer := Record.children_length_le_of_encode encoded
    have less := unvisited_add found unseen
    omega

end MemoryStorage

/-! ### In files -/

theorem BlobFolder.get_congr {left right : BlobFolder} (folder : left.folder = right.folder)
    (blob : String)
    (reads : ∀ path, right.locate blob = .ok path → left.tree.read path = right.tree.read path) :
    left.get blob = right.get blob := by
  have places : left.locate blob = right.locate blob := by rw [locate, locate, folder]
  rw [get, get, places]
  cases located : right.locate blob with
  | error cause => rfl
  | ok path =>
      dsimp only
      rw [reads path located]

namespace FileStorage

variable {storage : FileStorage} {id : NodeId} {bundle : Bundle} {bytes : List UInt8}

/-- Every record that can be read is the one of its node. What cannot be read may be anything. -/
structure Orderly (storage : FileStorage) : Prop where
  closed : storage.tree.Closed
  folder : storage.blobs.folder = (storage.root.join "blobs").path
  filed : ∀ {id bundle}, storage.loadBundle id = .ok (some bundle) → bundle.id = id ∧
    ∃ bytes, storage.tree.read (storage.bundlePath id) = .ok bytes ∧
      Record.encode Record.bundle bundle = .ok bytes

theorem read_of_loaded (loaded : storage.loadBundle id = .ok (some bundle)) :
    ∃ bytes, storage.tree.read (storage.bundlePath id) = .ok bytes ∧
      Record.decode Record.bundle bytes ("bundle " ++ id.text) = .ok bundle := by
  rw [loadBundle, readRecord] at loaded
  cases read : storage.tree.read (storage.bundlePath id) with
  | error cause => cases cause <;> simp [read] at loaded
  | ok bytes =>
      simp only [read] at loaded
      cases decoded : Record.decode Record.bundle bytes ("bundle " ++ id.text) with
      | error cause =>
          rw [decoded] at loaded
          cases loaded
      | ok found =>
          rw [decoded] at loaded
          cases loaded
          exact ⟨bytes, rfl, decoded⟩

theorem loadBundle_read (read : storage.tree.read (storage.bundlePath id) = .ok bytes)
    (encoded : Record.encode Record.bundle bundle = .ok bytes) :
    storage.loadBundle id = .ok (some bundle.record) := by
  rw [loadBundle, readRecord, read]
  dsimp only
  rw [Record.decode_encode (Record.bundle_yields bundle) encoded]
  rfl

theorem loadBundle_congr {other : FileStorage}
    (reads : other.tree.read (other.bundlePath id) = storage.tree.read (storage.bundlePath id)) :
    other.loadBundle id = storage.loadBundle id := by
  rw [loadBundle, loadBundle, readRecord, readRecord, reads]

theorem Orderly.recorded (orderly : storage.Orderly)
    (loaded : storage.loadBundle id = .ok (some bundle)) : bundle.record = bundle := by
  obtain ⟨_named, bytes, read, encoded⟩ := orderly.filed loaded
  rw [loadBundle_read read encoded] at loaded
  exact Option.some.inj (Except.ok.inj loaded)

/-- Whatever a repository has left is orderly. -/
theorem Sound.orderly {slots : PropertyId → Nat → Option String} (sound : storage.Sound slots) :
    storage.Orderly := by
  refine ⟨sound.closed, sound.folder, fun {id bundle} loaded => ?_⟩
  obtain ⟨bytes, read, _decoded⟩ := read_of_loaded loaded
  have held : storage.held (.bundle id) = some bytes := by
    rw [FileStorage.held, ← bundlePath_eq, FileTree.bytes?, read]
    rfl
  obtain ⟨written, named, recorded, encoded⟩ := sound.recorded id bytes held
  rw [loadBundle_read read encoded, recorded] at loaded
  cases loaded
  exact ⟨named, bytes, read, encoded⟩

/-! #### A record in the place of another -/

/-- The storage with other bytes in the place of a record. -/
def withRecord (storage : FileStorage) (id : NodeId) (bytes : List UInt8) : FileStorage :=
  storage.setTree ⟨storage.tree.nodes.insert (storage.bundlePath id) (.file bytes)⟩

theorem folder_withRecord (storage : FileStorage) (id : NodeId) (bytes : List UInt8) :
    (storage.withRecord id bytes).blobs.folder = storage.blobs.folder := rfl

theorem root_withRecord (storage : FileStorage) (id : NodeId) (bytes : List UInt8) :
    (storage.withRecord id bytes).root = storage.root := rfl

@[simp]
theorem bundlePath_withRecord (storage : FileStorage) (id other : NodeId) (bytes : List UInt8) :
    (storage.withRecord id bytes).bundlePath other = storage.bundlePath other := rfl

/-- No blob lies in the place of a record. -/
theorem locate_aside (folder : storage.blobs.folder = (storage.root.join "blobs").path)
    {blob : String} {path : FilePath} (located : storage.blobs.locate blob = .ok path) :
    FilePath.base path ≠ storage.bundlePath id := by
  obtain ⟨onward, rfl⟩ := BlobFolder.locate_onward located
  have named : FilePath.Plain "blobs" := by decide
  have top : FilePath.base (storage.root.join "blobs").path =
      FilePath.base storage.root.path ++ ["blobs"] :=
    (FilePath.base_of_undotted (named.undotted storage.root.path)).trans
      (Location.join_path storage.root named)
  rw [FilePath.base_resolve onward, folder, top, bundlePath_eq, Piece.path, List.append_assoc]
  intro same
  have steps := List.append_cancel_left same
  rw [List.singleton_append, Piece.steps, List.cons.injEq] at steps
  exact absurd steps.1 (by decide)

section

variable {old : List UInt8}

theorem withRecord_find (held : storage.tree.nodes.find? (storage.bundlePath id) = some (.file old))
    {path : FilePath} (aside : FilePath.base path ≠ storage.bundlePath id) :
    (storage.withRecord id bytes).tree.find path = storage.tree.find path :=
  FileTree.find_replaced held aside

theorem withRecord_read (held : storage.tree.nodes.find? (storage.bundlePath id) = some (.file old))
    {path : FilePath} (aside : FilePath.base path ≠ storage.bundlePath id) :
    (storage.withRecord id bytes).tree.read path = storage.tree.read path := by
  rw [FileTree.read, FileTree.read, withRecord_find held aside]

theorem bundlePath_aside {other : NodeId} (differs : other ≠ id) :
    FilePath.base (storage.bundlePath other) ≠ storage.bundlePath id := by
  rw [FilePath.base_of_undotted (storage.bundlePath_undotted other)]
  exact fun same => differs (bundlePath_injective same)

/-- Storing a bundle in the place of one that can be read. -/
theorem storeBundle_over (closed : storage.tree.Closed)
    (read : storage.tree.read (storage.bundlePath bundle.id) = .ok old)
    (encoded : Record.encode Record.bundle bundle = .ok bytes) :
    storage.storeBundle bundle = (.ok (), storage.withRecord bundle.id bytes) ∧
      storage.tree.nodes.find? (storage.bundlePath bundle.id) = some (.file old) ∧
      (storage.withRecord bundle.id bytes).tree.Closed ∧
      (storage.withRecord bundle.id bytes).tree.read (storage.bundlePath bundle.id) =
        .ok bytes := by
  have undotted := storage.bundlePath_undotted bundle.id
  obtain ⟨held, written⟩ := FileTree.write_over closed undotted read bytes
  have sets := FileTree.write_ok closed undotted written
  refine ⟨?_, held, sets.closed, ?_⟩
  · rw [storeBundle, encoded]
    dsimp only
    rw [writeRecord, written]
    rfl
  · exact (FileTree.read_ok sets.closed undotted).mpr
      ((FileTree.bytes?_eq_some sets.closed undotted).mp sets.here)

theorem replaced_withRecord (orderly : storage.Orderly) (recorded : bundle.record = bundle)
    (read : storage.tree.read (storage.bundlePath bundle.id) = .ok old)
    (encoded : Record.encode Record.bundle bundle = .ok bytes) :
    inspection.Replaced bundle storage (storage.withRecord bundle.id bytes) := by
  obtain ⟨_stored, held, closed, now⟩ := storeBundle_over orderly.closed read encoded
  refine ⟨funext fun other => ?_, funext fun blob => ?_, fun other => ?_⟩
  · rw [inspection_stored, inspection_stored, bundlePath_withRecord]
    by_cases same : other = bundle.id
    · have undotted := storage.bundlePath_undotted bundle.id
      have before := FileTree.has_of_readable
        ((FileTree.bytes?_eq_some orderly.closed undotted).mpr
          ((FileTree.read_ok orderly.closed undotted).mp read))
      have later := FileTree.has_of_readable
        ((FileTree.bytes?_eq_some closed undotted).mpr ((FileTree.read_ok closed undotted).mp now))
      rw [same, before, later]
    · rw [FileTree.has, FileTree.has, withRecord_find held (bundlePath_aside same)]
  · have folder : (storage.withRecord bundle.id bytes).blobs.folder = storage.blobs.folder := rfl
    have same := BlobFolder.get_congr folder blob (fun _path located =>
      withRecord_read held (locate_aside orderly.folder located))
    unfold inspection
    dsimp only
    rw [same]
  · rw [inspection_load]
    split
    · rename_i same
      rw [same, loadBundle_read now encoded, recorded]
    · rename_i differs
      exact loadBundle_congr (withRecord_read held (bundlePath_aside differs))

end

/-! #### What is still to be visited -/

/-- A record of one of these nodes lies here. -/
def visitedPlace (storage : FileStorage) (seen : SortedSet NodeId) (path : FilePath) : Bool :=
  (SortedMap.keys seen).any (fun id => storage.bundlePath id = path)

theorem visitedPlace_iff {seen : SortedSet NodeId} {path : FilePath} :
    storage.visitedPlace seen path = true ↔
      ∃ id, SortedMap.contains seen id = true ∧ storage.bundlePath id = path := by
  simp only [visitedPlace, List.any_eq_true, SortedMap.mem_keys, decide_eq_true_eq]

theorem visitedPlace_bundlePath {seen : SortedSet NodeId} :
    storage.visitedPlace seen (storage.bundlePath id) = SortedMap.contains seen id := by
  rw [Bool.eq_iff_iff, visitedPlace_iff]
  constructor
  · rintro ⟨other, visited, same⟩
    exact bundlePath_injective same ▸ visited
  · exact fun visited => ⟨id, visited, rfl⟩

theorem visitedPlace_add {seen : SortedSet NodeId} (id : NodeId) (path : FilePath)
    (visited : storage.visitedPlace seen path = true) :
    storage.visitedPlace (SortedSet.add seen id) path = true := by
  obtain ⟨other, before, there⟩ := visitedPlace_iff.mp visited
  exact visitedPlace_iff.mpr ⟨other, (MemoryStorage.contains_add seen id other).mpr (Or.inr before), there⟩

/-- What the files weigh that are not records of nodes visited. -/
def unvisited (storage : FileStorage) (seen : SortedSet NodeId) : Nat :=
  storage.tree.nodes.weightWithout FileNode.size (storage.visitedPlace seen)

theorem unvisited_lt_visitBound (storage : FileStorage) (ids : List NodeId) :
    ids.length + storage.unvisited SortedMap.empty < storage.visitBound ids := by
  have left := storage.tree.nodes.weightWithout_le_sum FileNode.size
    (storage.visitedPlace SortedMap.empty)
  rw [visitBound, unvisited, foldr_eq_sum_map FileNode.size]
  omega

theorem unvisited_withRecord {seen : SortedSet NodeId} (bytes : List UInt8)
    (visited : SortedMap.contains seen id = true) :
    (storage.withRecord id bytes).unvisited seen = storage.unvisited seen :=
  SortedMap.weightWithout_insert storage.tree.nodes FileNode.size (.file bytes)
    (visitedPlace_bundlePath.trans visited)

/-- A visit takes the record of the node off what is left, and with it the entries. -/
theorem unvisited_add (closed : storage.tree.Closed) {seen : SortedSet NodeId}
    (loaded : storage.loadBundle id = .ok (some bundle))
    (unseen : SortedMap.contains seen id = false) :
    bundle.children.length + storage.unvisited (SortedSet.add seen id) ≤ storage.unvisited seen := by
  obtain ⟨bytes, read, decoded⟩ := read_of_loaded loaded
  have longer := Record.children_length_le decoded
  have held := (FileTree.write_over closed (storage.bundlePath_undotted id) read bytes).1
  have marked := (MemoryStorage.contains_add seen id id).mpr (Or.inl rfl)
  have less : bytes.length + storage.unvisited (SortedSet.add seen id) ≤ storage.unvisited seen :=
    SortedMap.weightWithout_take FileNode.size held
      (fun path visited => visitedPlace_add id path visited)
      (visitedPlace_bundlePath.trans unseen) (visitedPlace_bundlePath.trans marked)
  omega

theorem Orderly.withRecord {old : List UInt8} (orderly : storage.Orderly)
    (recorded : bundle.record = bundle)
    (read : storage.tree.read (storage.bundlePath bundle.id) = .ok old)
    (encoded : Record.encode Record.bundle bundle = .ok bytes) :
    (storage.withRecord bundle.id bytes).Orderly := by
  obtain ⟨_stored, held, closed, now⟩ := storeBundle_over orderly.closed read encoded
  constructor
  case closed => exact closed
  case folder =>
    rw [folder_withRecord, root_withRecord]
    exact orderly.folder
  case filed =>
    intro id found there
    have loads := (replaced_withRecord orderly recorded read encoded).load id
    rw [inspection_load, there] at loads
    rw [bundlePath_withRecord]
    split at loads
    · rename_i same
      cases loads
      rw [same]
      exact ⟨rfl, bytes, now, encoded⟩
    · rename_i differs
      obtain ⟨named, others, reads, encodes⟩ := orderly.filed loads.symm
      rw [withRecord_read held (bundlePath_aside differs)]
      exact ⟨named, others, reads, encodes⟩

theorem Orderly.replaces {children : List Child} (orderly : storage.Orderly)
    (loaded : storage.loadBundle bundle.id = .ok (some bundle))
    (fewer : children.Sublist bundle.children) :
    ∃ after, storage.storeBundle { bundle with children } = (.ok (), after) ∧ after.Orderly ∧
      inspection.Replaced { bundle with children } storage after ∧
      ∀ seen, SortedMap.contains seen bundle.id = true →
        after.unvisited seen ≤ storage.unvisited seen := by
  obtain ⟨_named, bytes, read, encoded⟩ := orderly.filed loaded
  obtain ⟨shorter, fits⟩ := MemoryStorage.encode_fewer fewer encoded
  have written : ({ bundle with children } : Bundle).record = { bundle with children } := by
    rw [← orderly.recorded loaded]
    rfl
  have named : ({ bundle with children } : Bundle).id = bundle.id := rfl
  generalize ({ bundle with children } : Bundle) = less at fits written named
  rw [← named] at read ⊢
  exact ⟨storage.withRecord less.id shorter, (storeBundle_over orderly.closed read fits).1,
    orderly.withRecord written read fits, replaced_withRecord orderly written read fits,
    fun seen visited => Nat.le_of_eq (unvisited_withRecord shorter visited)⟩

/-- A check that mends nothing may come to any bytes. -/
theorem inspection_bounded : inspection.Bounded (fun storage => storage.tree.Closed) unvisited where
  bearable _closed _failed := by
    unfold inspection
    dsimp only
  lighter storage seen id :=
    SortedMap.weightWithout_le (fun path visited => visitedPlace_add id path visited)
  weighed closed loaded unseen := by
    rw [inspection_load] at loaded
    exact unvisited_add closed loaded unseen

theorem inspection_lawful : inspection.Lawful Orderly unvisited where
  named orderly loaded := by
    rw [inspection_load] at loaded
    exact (orderly.filed loaded).1
  bearable orderly := inspection_bounded.bearable orderly.closed
  replaces orderly loaded fewer := by
    rw [inspection_load] at loaded
    rw [inspection_store]
    exact orderly.replaces loaded fewer
  lighter := inspection_bounded.lighter
  weighed orderly := inspection_bounded.weighed orderly.closed

end FileStorage

/-! ### Storage of either kind -/

namespace Storage

variable {storage before after : Storage} {recursive : Bool} {ids : List NodeId}

/-- What a call for the node's bundle gives. -/
def load (storage : Storage) (id : NodeId) : Except StorageError (Option Bundle) :=
  (storage.serve (.loadBundle id)).1

/-- Something lies in the place of the node's record. -/
def stored : Storage → NodeId → Bool
  | .memory contents, id => contents.bundles.contains id
  | .unchecked contents, id => contents.bundles.contains id
  | .files contents, id => contents.tree.has (contents.bundlePath id)

/-- Every record that can be read is the one of its node. -/
def Orderly : Storage → Prop
  | .memory contents => contents.Sound
  | .unchecked _ => False
  | .files contents => contents.Orderly

/-- The nodes that a check begins with; all that have a record if it is asked for none. -/
def asked (storage : Storage) (ids : List NodeId) : List NodeId :=
  if ids.isEmpty then storage.ids.1.toOption.getD [] else ids

/-- The bundle without the entries that lead nowhere. -/
def pruned (storage : Storage) (bundle : Bundle) : Bundle :=
  { bundle with children := bundle.children.filter (fun child => storage.stored child.id) }

/-- The nodes that a check comes to. -/
inductive Visits (storage : Storage) (recursive : Bool) (ids : List NodeId) : NodeId → Prop where
  | asked {id : NodeId} (member : id ∈ storage.asked ids) : Visits storage recursive ids id
  | child {parent : NodeId} {bundle : Bundle} {child : Child}
      (visits : Visits storage recursive ids parent) (further : recursive = true)
      (loaded : storage.load parent = .ok (some bundle)) (member : child ∈ bundle.children)
      (stored : storage.stored child.id = true) : Visits storage recursive ids child.id

/-- What a repair comes to: the records of the nodes that it came to are pruned, and all others are
as they were. -/
structure Repaired (recursive : Bool) (ids : List NodeId) (before after : Storage) : Prop where
  stored : after.stored = before.stored
  visited : ∀ id, before.Visits recursive ids id →
    after.load id = (before.load id).map (Option.map before.pruned)
  others : ∀ id, ¬ before.Visits recursive ids id → after.load id = before.load id

section

variable {σ : Type} {inspection : Inspection σ} {start finish : σ}

/-- The inspection looks at what the storage holds. -/
structure Shows (inspection : Inspection σ) (state : σ) (storage : Storage) : Prop where
  load : inspection.load state = storage.load
  stored : inspection.stored state = storage.stored

theorem Shows.visits (shows : Shows inspection start storage) {id : NodeId} :
    inspection.Visits start recursive (storage.asked ids) id ↔ storage.Visits recursive ids id := by
  constructor
  · intro visits
    induction visits with
    | asked member => exact .asked member
    | child _visits further loaded member ih =>
        obtain ⟨listed, there⟩ := List.mem_filter.mp member
        rw [shows.load] at loaded
        rw [shows.stored] at there
        exact .child ih further loaded listed there
  · intro visits
    induction visits with
    | asked member => exact .asked member
    | child _visits further loaded member stored ih =>
        rw [← shows.load] at loaded
        rw [← shows.stored] at stored
        exact .child ih further loaded (List.mem_filter.mpr ⟨member, stored⟩)

theorem Shows.repaired {problems : List Problem} {order : List NodeId}
    (first : Shows inspection start before) (last : Shows inspection finish after)
    (sweep : inspection.Sweep recursive true (before.asked ids) start finish problems order) :
    Repaired recursive ids before after := by
  have mended : inspection.Pruned order start finish := sweep.mended
  have pruned : inspection.pruned start = before.pruned := by
    funext bundle
    rw [Inspection.pruned, Inspection.storedChildren, first.stored, Storage.pruned]
  have loads := mended.load
  rw [first.load, last.load, pruned] at loads
  refine ⟨?_, fun id visits => ?_, fun id unvisited => ?_⟩
  · rw [← first.stored, ← last.stored, mended.stored]
  · rw [loads, if_pos ((sweep.visited id).mpr (first.visits.mpr visits))]
  · rw [loads, if_neg (fun member => unvisited (first.visits.mp ((sweep.visited id).mp member)))]

end

theorem load_files (contents : FileStorage) (id : NodeId) :
    (files contents).load id = contents.loadBundle id := by
  simp only [load, serve, FileStorage.serve]

theorem shows_memory (contents : MemoryStorage) :
    Shows MemoryStorage.inspection contents (.memory contents) := ⟨rfl, rfl⟩

theorem shows_files (contents : FileStorage) :
    Shows FileStorage.inspection contents (.files contents) := by
  constructor
  · rw [FileStorage.inspection_load]
    exact funext (fun id => (load_files contents id).symm)
  · exact funext (FileStorage.inspection_stored contents)

/-- A repair that asks for nothing leaves all as it is. -/
theorem Repaired.of_none (none : storage.asked ids = []) : Repaired recursive ids storage storage := by
  refine ⟨rfl, fun id visits => ?_, fun _id _unvisited => rfl⟩
  exfalso
  induction visits with
  | asked member =>
      rw [none] at member
      cases member
  | child _visits _further _loaded _member _stored ih => exact ih

/-- A repair of an orderly storage fails before it has begun, or not at all. -/
theorem Orderly.repair (orderly : storage.Orderly) (ids : List NodeId) (recursive : Bool)
    {result : Except StorageError (List Problem)} {warnings : List Warning}
    (served : storage.serve (.checkConsistency ids recursive true) = (result, after, warnings)) :
    after.Orderly ∧ Repaired recursive ids storage after ∧
      ((∃ problems, result = .ok problems) ∨ after = storage) := by
  cases storage with
  | unchecked contents => exact absurd orderly (fun impossible => impossible)
  | memory contents =>
      have wanted : (if ids.isEmpty then contents.ids else ids) = (memory contents).asked ids := rfl
      obtain ⟨problems, later, order, checked, sound, _loop, _plain, sweep⟩ :=
        MemoryStorage.inspection_lawful.check (MemoryStorage.visit_follows recursive true) orderly
          ((memory contents).asked ids) (contents.unvisited_lt_visitBound _)
      simp only [Storage.serve, MemoryStorage.serve, MemoryStorage.check, wanted, checked] at served
      cases served
      exact ⟨sound, (shows_memory contents).repaired (shows_memory later) sweep,
        Or.inl ⟨problems, rfl⟩⟩
  | files contents =>
      have listed : (files contents).asked ids =
          (if ids.isEmpty then contents.ids else (.ok ids, [])).1.toOption.getD [] := by
        rw [asked]
        split <;> rfl
      simp only [Storage.serve, FileStorage.serve, FileStorage.check] at served
      rcases found : (if ids.isEmpty then contents.ids else (.ok ids, [])) with ⟨cause | wanted, given⟩
      · rw [found] at listed served
        cases served
        exact ⟨orderly, Repaired.of_none listed, Or.inr rfl⟩
      · rw [found] at listed served
        obtain rfl : (files contents).asked ids = wanted := listed
        obtain ⟨problems, later, order, checked, still, _loop, _plain, sweep⟩ :=
          FileStorage.inspection_lawful.check (FileStorage.visit_follows recursive true) orderly
            ((files contents).asked ids) (contents.unvisited_lt_visitBound _)
        simp only [checked] at served
        cases served
        exact ⟨still, (shows_files contents).repaired (shows_files later) sweep,
          Or.inl ⟨problems, rfl⟩⟩

end Storage

end BundleStore
