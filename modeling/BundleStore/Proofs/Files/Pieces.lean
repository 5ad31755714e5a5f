import BundleStore.Proofs.Index.Numbers
import BundleStore.Storage.Files

set_option autoImplicit false

/-! A repository in files is kept in pieces: the record of each node, the reference list of each
target, each blob, and the numbers of the local names. Every piece has a file of its own, so what an
operation does to one piece it does to no other. -/

namespace BundleStore

/-- What has a file of its own. -/
inductive Piece where
  | bundle (id : NodeId)
  | references (target : NodeId)
  | blob (id : { id : String // FilePath.Plain id })
  | names
deriving DecidableEq

namespace Piece

/-- The names passed on the way down from the root. -/
def steps : Piece → List String
  | bundle id => "bundles" :: FilePath.segments id.bundleFile
  | references target => "bundles" :: FilePath.segments target.referencesFile
  | blob id => "blobs" :: FilePath.segments id.1
  | names => [StoragePaths.namesFile]

def path (root : Location) (piece : Piece) : FilePath := FilePath.base root.path ++ piece.steps

theorem steps_ne_nil (piece : Piece) : piece.steps ≠ [] := by cases piece <;> simp [steps]

theorem plain_bundleFile (id : NodeId) : FilePath.Plain id.bundleFile :=
  id.plain_below (by decide) (by decide)

theorem plain_referencesFile (id : NodeId) : FilePath.Plain id.referencesFile :=
  id.plain_below (by decide) (by decide)

theorem file_inj {left right : NodeId} {first last : List Char}
    (same : FilePath.segments (String.ofList (left.folderChars ++ first)) =
      FilePath.segments (String.ofList (right.folderChars ++ last))) :
    left = right ∧ first = last := by
  have chars := String.ofList_injective (FilePath.segments_injective same)
  obtain ⟨folders, lasts⟩ := List.append_inj chars
    (by rw [NodeId.folderChars_length, NodeId.folderChars_length])
  exact ⟨NodeId.folderChars_inj folders, lasts⟩

theorem steps_injective {left right : Piece} (same : left.steps = right.steps) : left = right := by
  cases left <;> cases right <;> simp only [steps, List.cons.injEq] at same
  case bundle.bundle => rw [(file_inj same.2).1]
  case references.references => rw [(file_inj same.2).1]
  case blob.blob => rw [Subtype.ext (FilePath.segments_injective same.2)]
  case names.names => rfl
  case bundle.references => exact absurd (file_inj same.2).2 (by decide)
  case references.bundle => exact absurd (file_inj same.2).2 (by decide)
  all_goals exact absurd same.1 (by decide)

theorem path_injective {root : Location} {left right : Piece}
    (same : left.path root = right.path root) : left = right :=
  steps_injective (List.append_cancel_left same)

theorem steps_undotted (piece : Piece) : "." ∉ piece.steps := by
  have below {folder text : String} (differs : "." ≠ folder) (plain : FilePath.Plain text) :
      "." ∉ folder :: FilePath.segments text := by
    rw [List.mem_cons, not_or]
    exact ⟨differs, fun member => (plain "." member).2.1 rfl⟩
  cases piece with
  | bundle id => exact below (by decide) (plain_bundleFile id)
  | references target => exact below (by decide) (plain_referencesFile target)
  | blob id => exact below (by decide) id.2
  | names => decide

theorem undotted (root : Location) (piece : Piece) : "." ∉ piece.path root := by
  rw [path, List.mem_append, not_or]
  exact ⟨FilePath.base_undotted root.path, piece.steps_undotted⟩

end Piece

theorem Location.join_path (folder : Location) {name : String} (plain : FilePath.Plain name) :
    (folder.join name).path = FilePath.base folder.path ++ FilePath.segments name :=
  plain.resolve folder.path

/-- An identifier that is not refused does not step up. -/
theorem BlobFolder.locate_onward {store : BlobFolder} {blob : String} {path : FilePath}
    (located : store.locate blob = .ok path) :
    (∀ name ∈ FilePath.segments blob, name ≠ "" ∧ name ≠ "..") ∧
      path = FilePath.resolve store.folder blob := by
  rw [locate] at located
  split at located
  · rename_i allowed
    cases located
    refine ⟨fun name member => ?_, rfl⟩
    simpa [segmentAllowed] using List.all_eq_true.mp allowed name member
  · cases located

namespace FileStorage

variable {storage before after : FileStorage} {piece : Piece} {bytes : List UInt8} {id : NodeId}

/-- The bytes of each piece that can be read. -/
def held (storage : FileStorage) (piece : Piece) : Option (List UInt8) :=
  storage.tree.bytes? (piece.path storage.root)

/-- The steps in which a repository is opened. -/
theorem openRoot_eq_ok {root : Location} {registry : Interner} {tree later : FileTree}
    (opened : openRoot root registry tree = (.ok storage, later)) :
    ∃ rooted numbered shelved paths, tree.makeFolders root.path = (.ok (), rooted) ∧
      StoragePaths.openFolder root registry rooted = (.ok paths, numbered) ∧
      numbered.makeFolders (root.join "bundles").path = (.ok (), shelved) ∧
      shelved.makeFolders (root.join "blobs").path = (.ok (), later) ∧
      storage = ⟨root, ⟨(root.join "blobs").path, paths, later⟩⟩ := by
  rw [openRoot] at opened
  split at opened
  · cases opened
  · rename_i rooted rooting
    split at opened
    · cases opened
    · rename_i paths numbered numbering
      split at opened
      · cases opened
      · rename_i shelved shelving
        dsimp only at opened
        split at opened
        · cases opened
        · rename_i last stocking
          cases opened
          exact ⟨rooted, numbered, shelved, paths, rooting, numbering, shelving, stocking, rfl⟩

theorem resolve_below {folder text : String} (named : FilePath.segments folder = [folder])
    (plain : FilePath.Plain folder) (onward : FilePath.Plain text) (root : Location) :
    FilePath.resolve (root.join folder).path text =
      FilePath.base root.path ++ (folder :: FilePath.segments text) := by
  have undotted : "." ∉ (root.join folder).path := plain.undotted root.path
  rw [onward.resolve, FilePath.base_of_undotted undotted, Location.join_path root plain, named,
    List.append_assoc]
  rfl

theorem bundlePath_eq (storage : FileStorage) (id : NodeId) :
    storage.bundlePath id = (Piece.bundle id).path storage.root :=
  resolve_below (by decide) (by decide) (Piece.plain_bundleFile id) storage.root

theorem bundlePath_undotted (storage : FileStorage) (id : NodeId) :
    "." ∉ storage.bundlePath id := by
  rw [bundlePath_eq]
  exact (Piece.bundle id).undotted storage.root

theorem bundlePath_injective {other : NodeId}
    (same : storage.bundlePath id = storage.bundlePath other) : id = other := by
  rw [bundlePath_eq, bundlePath_eq] at same
  exact Piece.bundle.inj (Piece.path_injective same)

theorem referencesPath_eq (storage : FileStorage) (target : NodeId) :
    storage.referencesPath target = (Piece.references target).path storage.root :=
  resolve_below (by decide) (by decide) (Piece.plain_referencesFile target) storage.root

theorem names_path (root : Location) :
    (root.join StoragePaths.namesFile).path = Piece.names.path root :=
  Location.join_path root (by decide)

theorem names_undotted (root : Location) : "." ∉ (root.join StoragePaths.namesFile).path := by
  rw [names_path]
  exact Piece.names.undotted root

/-! ### What an operation makes of the pieces -/

/-- Nothing else about the storage is different. -/
structure Becomes (before after : FileStorage) (held : Piece → Option (List UInt8)) : Prop where
  root : after.root = before.root
  folder : after.blobs.folder = before.blobs.folder
  paths : after.blobs.paths = before.blobs.paths
  closed : after.tree.Closed
  held : after.held = held

theorem Becomes.refl (closed : storage.tree.Closed) : Becomes storage storage storage.held :=
  ⟨rfl, rfl, rfl, closed, rfl⟩

theorem held_of_sets {root : Location} {tree later : FileTree} {bytes : Option (List UInt8)}
    (sets : FileTree.Sets (piece.path root) bytes tree later) :
    (fun other : Piece => later.bytes? (other.path root)) =
      Function.update (fun other : Piece => tree.bytes? (other.path root)) piece bytes := by
  funext other
  by_cases same : other = piece
  · rw [same, Function.update_self]
    exact sets.here
  · rw [Function.update_of_ne same]
    exact sets.others _ (other.undotted root) (fun equal => same (Piece.path_injective equal))

theorem held_of_same {root : Location} {tree later : FileTree} (same : FileTree.Same tree later) :
    (fun other : Piece => later.bytes? (other.path root)) =
      fun other : Piece => tree.bytes? (other.path root) :=
  funext (fun other => same.bytes _ (other.undotted root))

theorem becomes_of_sets {tree : FileTree} {bytes : Option (List UInt8)}
    (sets : FileTree.Sets (piece.path storage.root) bytes storage.tree tree) :
    Becomes storage (storage.setTree tree) (Function.update storage.held piece bytes) :=
  ⟨rfl, rfl, rfl, sets.closed, held_of_sets sets⟩

theorem becomes_of_same {tree : FileTree} (same : FileTree.Same storage.tree tree) :
    Becomes storage (storage.setTree tree) storage.held :=
  ⟨rfl, rfl, rfl, same.closed, held_of_same same⟩

theorem readRecord_ok {found : Option (List UInt8)}
    (read : storage.readRecord (piece.path storage.root) = .ok found) :
    found = storage.held piece := by
  unfold held FileTree.bytes?
  rw [readRecord] at read
  split at read <;> cases read <;> simp_all [Except.toOption]

theorem readRecord_held (held : storage.held piece = some bytes) :
    storage.readRecord (piece.path storage.root) = .ok (some bytes) := by
  unfold FileStorage.held FileTree.bytes? at held
  rw [readRecord]
  cases read : storage.tree.read (piece.path storage.root) with
  | error cause =>
      rw [read] at held
      cases held
  | ok found =>
      rw [read] at held
      cases held
      rfl

theorem writeRecord_ok (closed : storage.tree.Closed)
    (written : storage.writeRecord (piece.path storage.root) bytes = (.ok (), after)) :
    Becomes storage after (Function.update storage.held piece (some bytes)) := by
  rw [writeRecord] at written
  cases wrote : storage.tree.write (piece.path storage.root) bytes with
  | mk result tree =>
      cases result with
      | error cause =>
          rw [wrote] at written
          cases written
      | ok _unit =>
          rw [wrote] at written
          cases written
          exact becomes_of_sets (FileTree.write_ok closed (piece.undotted storage.root) wrote)

theorem writeRecord_error {cause : StorageError} (closed : storage.tree.Closed) {path : FilePath}
    (failed : storage.writeRecord path bytes = (.error cause, after)) :
    Becomes storage after storage.held := by
  rw [writeRecord] at failed
  cases wrote : storage.tree.write path bytes with
  | mk result tree =>
      cases result with
      | ok _unit =>
          rw [wrote] at failed
          cases failed
      | error cause =>
          rw [wrote] at failed
          cases failed
          exact becomes_of_same (FileTree.write_error closed wrote)

/-- A record that cannot be removed stays as it was. -/
theorem removeRecord_becomes {result : Except StorageError Unit} (closed : storage.tree.Closed)
    (removed : storage.removeRecord (piece.path storage.root) = (result, after)) :
    Becomes storage after (match result with
      | .ok () => Function.update storage.held piece none
      | .error _ => storage.held) := by
  rw [removeRecord] at removed
  split at removed
  · rename_i gone
    cases removed
    exact becomes_of_sets (FileTree.remove_ok closed (piece.undotted storage.root) gone).1
  · rename_i missing
    cases removed
    have absent : storage.held piece = none := FileTree.remove_error missing
    rw [← absent, Function.update_eq_self]
    exact Becomes.refl closed
  · cases removed
    exact Becomes.refl closed

end FileStorage

end BundleStore
