import BundleStore.Proofs.Index.Histories
import BundleStore.Proofs.Index.Mappings
import BundleStore.Proofs.Storage.Files

set_option autoImplicit false

/-! Opening a repository anew. Records, reference lists and blobs are found as they were left, and so
are the numbers of the local names. The numbers of the namespaces start afresh: where no file holds
them they are those of the registry that is handed in. -/

namespace BundleStore

namespace StringIndex

variable {index : StringIndex} {tree after : FileTree} {location : Location}

/-- There is no file yet, or an index has been kept in it. -/
def Found (location : Location) (tree : FileTree) : Prop :=
  tree.at? location.path = none ∨
    ∃ interner, interner.Agrees ∧ tree.bytes? location.path = some (fileBytes interner)

theorem openFile_ok (closed : tree.Closed) (undotted : "." ∉ location.path)
    (found : Found location tree) (opened : openFile location tree = (.ok index, after)) :
    index.file = some location ∧
      FileTree.Sets location.path (some (fileBytes index.interner)) tree after := by
  rw [openFile] at opened
  split at opened
  · rename_i there
    obtain ⟨loaded, rfl⟩ := Prod.mk.inj opened
    rcases found with absent | ⟨interner, agrees, held⟩
    · rw [FileTree.has_of_absent closed undotted absent] at there
      cases there
    · have read : tree.read location.path = .ok (fileBytes interner) :=
        (FileTree.read_ok closed undotted).mpr ((FileTree.bytes?_eq_some closed undotted).mp held)
      simp only [load, read] at loaded
      split at loaded
      · cases loaded
      · rename_i parsed given
        obtain rfl := parse_fileBytes_ok agrees given
        cases loaded
        exact ⟨rfl, closed, held, fun _other _plain _differs => rfl⟩
  · rw [create] at opened
    have grown := FileTree.makeFolders_grown closed (FilePath.parent location.path)
    split at opened
    · cases opened
    · rename_i made folders
      rw [folders] at grown
      split at opened
      · cases opened
      · rename_i saved
        cases opened
        exact ⟨rfl, (save_ok grown.closed undotted saved).after_same (grown.same closed)⟩

end StringIndex

namespace FileStorage

variable {storage : FileStorage} {root : Location} {tree after : FileTree}
  {slots : PropertyId → Nat → Option String} {registry : Interner}

/-- The bytes of each piece that can be read below the root. -/
def piecesIn (root : Location) (tree : FileTree) : Pieces :=
  fun piece => tree.bytes? (piece.path root)

/-- What a repository leaves below its root; nothing at all if there has been none. -/
structure Left (root : Location) (tree : FileTree) : Prop where
  closed : tree.Closed
  recorded : Pieces.Recorded (piecesIn root tree)
  names : StringIndex.Found (root.join StoragePaths.namesFile) tree

/-- Nothing lies below the root. -/
def Bare (root : Location) (tree : FileTree) : Prop :=
  ∀ names, names ≠ [] → tree.at? (FilePath.base root.path ++ names) = none

/-- No file tells the numbers of the namespaces. -/
def Unregistered (root : Location) (tree : FileTree) : Prop :=
  tree.at? (root.join StoragePaths.namespacesFile).path = none

theorem empty_bare (root : Location) : Bare root FileTree.empty := by
  intro names some
  rw [FileTree.at?_of_ne (by simp [some])]
  exact SortedMap.find?_empty _

theorem Bare.none (bare : Bare root tree) (closed : tree.Closed) (piece : Piece) :
    piecesIn root tree piece = none := by
  rw [piecesIn, Option.eq_none_iff_forall_ne_some]
  intro bytes held
  have there := ((FileTree.bytes?_eq_some closed (piece.undotted root)).mp held).2
  rw [Piece.path, bare _ piece.steps_ne_nil] at there
  cases there

theorem Bare.left (bare : Bare root tree) (closed : tree.Closed) : Left root tree := by
  refine ⟨closed, fun id bytes held => ?_, Or.inl ?_⟩
  · rw [bare.none closed] at held
    cases held
  · rw [names_path]
    exact bare _ Piece.names.steps_ne_nil

theorem Sound.left (sound : storage.Sound slots) : Left storage.root storage.tree := by
  refine ⟨sound.closed, sound.recorded, Or.inr ⟨storage.blobs.paths.names.interner,
    sound.numbered.agrees.locals, ?_⟩⟩
  rw [names_path]
  exact sound.numbered.written

/-- An opened repository holds what was left, and the file of the local names, whatever the registry
says. -/
structure Laid (root : Location) (tree : FileTree) (storage : FileStorage) : Prop where
  placed : storage.root = root
  closed : storage.tree.Closed
  folder : storage.blobs.folder = (storage.root.join "blobs").path
  unkept : storage.blobs.paths.namespaces.file = none
  located : storage.blobs.paths.names.file = some (storage.root.join StoragePaths.namesFile)
  pieces : storage.held = Function.update (piecesIn root tree) .names
    (some (StringIndex.fileBytes storage.blobs.paths.names.interner))

theorem Laid.written (laid : Laid root tree storage) : storage.held .names =
    some (StringIndex.fileBytes storage.blobs.paths.names.interner) :=
  (congrFun laid.pieces .names).trans (Function.update_self ..)

theorem Laid.held (laid : Laid root tree storage) (piece : Piece) (other : piece ≠ .names) :
    storage.held piece = piecesIn root tree piece :=
  (congrFun laid.pieces piece).trans (Function.update_of_ne other ..)

/-- An opened repository has given no blob identifier yet, and holds what was left. -/
structure Opened (root : Location) (tree : FileTree) (storage : FileStorage) : Prop where
  placed : storage.root = root
  sound : storage.Sound (fun _ _ => none)
  held : ∀ piece ≠ Piece.names, storage.held piece = piecesIn root tree piece

theorem piecesIn_of_grown (grown : FileTree.Grown tree after) (closed : tree.Closed) :
    piecesIn root after = piecesIn root tree :=
  held_of_same (grown.same closed)

/-- The folders on the way to the root are not below it. -/
theorem below_root_absent {name : String} (plain : FilePath.Plain name)
    (absent : tree.at? (root.join name).path = none) :
    (tree.makeFolders root.path).2.at? (root.join name).path = none := by
  apply FileTree.makeFolders_within absent
  intro above
  have longer := above.length_le
  rw [Location.join_path root plain, List.length_append] at longer
  have some := List.length_pos_iff.mpr (FilePath.segments_ne_nil name)
  unfold FilePath.base at longer
  omega

theorem openFolder_ok {paths : StoragePaths}
    (unnumbered : tree.has (root.join StoragePaths.namespacesFile).path = false)
    (opened : StoragePaths.openFolder root registry tree = (.ok paths, after)) :
    paths.namespaces.file = none ∧
      StringIndex.openFile (root.join StoragePaths.namesFile) tree = (.ok paths.names, after) := by
  simp only [StoragePaths.openFolder, unnumbered, Bool.false_eq_true, if_false] at opened
  split at opened
  · cases opened
  · rename_i names
    cases opened
    exact ⟨rfl, names⟩

theorem openRoot_agrees (agrees : registry.Agrees)
    (opened : openRoot root registry tree = (.ok storage, after)) :
    storage.blobs.paths.Agrees := by
  obtain ⟨_rooted, _numbered, _shelved, _paths, _rooting, numbering, _shelving, _stocking, rfl⟩ :=
    openRoot_eq_ok opened
  exact StoragePaths.openFolder_agrees agrees numbering

theorem openRoot_laid (left : Left root tree) (unregistered : Unregistered root tree)
    (opened : openRoot root registry tree = (.ok storage, after)) : Laid root tree storage := by
  obtain ⟨closed, _recorded, found⟩ := left
  have first := FileTree.makeFolders_grown closed root.path
  have unnumbered : (tree.makeFolders root.path).2.has
      (root.join StoragePaths.namespacesFile).path = false := by
    apply FileTree.has_of_absent first.closed
    · exact FilePath.Plain.undotted (by decide) root.path
    · exact below_root_absent (by decide) unregistered
  have still : StringIndex.Found (root.join StoragePaths.namesFile)
      (tree.makeFolders root.path).2 := by
    rcases found with absent | ⟨interner, agrees, held⟩
    · exact Or.inl (below_root_absent (by decide) absent)
    · exact Or.inr ⟨interner, agrees, (first.bytes? closed (names_undotted root)).trans held⟩
  obtain ⟨rooted, numbered, shelved, paths, rooting, numbering, shelving, stocking, rfl⟩ :=
    openRoot_eq_ok opened
  rw [rooting] at first unnumbered still
  obtain ⟨unkept, names⟩ := openFolder_ok unnumbered numbering
  obtain ⟨file, sets⟩ := StringIndex.openFile_ok first.closed (names_undotted root) still names
  have second := FileTree.makeFolders_grown sets.closed (root.join "bundles").path
  rw [shelving] at second
  have third := FileTree.makeFolders_grown second.closed (root.join "blobs").path
  rw [stocking] at third
  rw [names_path] at sets
  refine ⟨rfl, third.closed, rfl, unkept, file, ?_⟩
  change piecesIn root after = _
  rw [piecesIn_of_grown third second.closed, piecesIn_of_grown second sets.closed,
    ← piecesIn_of_grown first closed]
  exact held_of_sets sets

theorem openRoot_ok (agrees : registry.Agrees) (left : Left root tree)
    (unregistered : Unregistered root tree)
    (opened : openRoot root registry tree = (.ok storage, after)) : Opened root tree storage := by
  have laid := openRoot_laid left unregistered opened
  have recorded := left.recorded
  refine ⟨laid.placed, ⟨laid.closed, laid.folder,
    ⟨laid.unkept, laid.located, laid.written, openRoot_agrees agrees opened⟩,
    fun id bytes there => ?_, ?_⟩, laid.held⟩
  · exact recorded id bytes ((laid.held (.bundle id) (by simp)).symm.trans there)
  · intro property place blob given
    cases given

end FileStorage

end BundleStore
