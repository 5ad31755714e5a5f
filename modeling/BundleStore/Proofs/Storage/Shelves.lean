import BundleStore.Proofs.Files.Sites
import BundleStore.Proofs.Storage.Openings

set_option autoImplicit false

/-! The files of a repository that keeps no blobs: what lies below its root is the file of the local
names, the records and the folders on the way to them. As long as nobody else writes there, no
operation on a record fails, and opening the repository anew finds it as it was left. -/

namespace BundleStore

namespace NodeId

/-- The folder for the records of the node, below the root. -/
def shelf (id : NodeId) : FilePath := "bundles" :: id.folderNames.map String.ofList

theorem shelf_length (id : NodeId) : id.shelf.length = 4 := rfl

end NodeId

namespace Piece

variable {piece : Piece}

theorem bundle_steps (id : NodeId) : (bundle id).steps = id.shelf ++ ["n"] :=
  congrArg (List.cons "bundles") (id.segments_below (by decide : '/' ∉ ['n']))

theorem references_steps (id : NodeId) : (references id).steps = id.shelf ++ ["r"] :=
  congrArg (List.cons "bundles") (id.segments_below (by decide : '/' ∉ ['r']))

/-- The pieces that are records. -/
inductive Record : Piece → Prop
  | bundle (id : NodeId) : Record (.bundle id)
  | references (target : NodeId) : Record (.references target)

/-- A record has a file in the folder of its node. -/
theorem Record.shelved (record : piece.Record) :
    ∃ id name, piece.steps = NodeId.shelf id ++ [name] ∧ FileTree.speakable [name] = true := by
  cases record with
  | bundle id => exact ⟨id, "n", bundle_steps id, by decide⟩
  | references target => exact ⟨target, "r", references_steps target, by decide⟩

theorem Record.ne_names (record : piece.Record) : Piece.names ≠ piece := by
  rintro rfl
  cases record

end Piece

namespace StringIndex

/-- The file of an index that maps nothing can be read. -/
theorem parse_empty : parse (fileBytes Interner.empty) = .ok Interner.empty := by
  have bytes : fileBytes Interner.empty = [0x7B, 0x7D] := by decide
  have mapping : Json.Mapping.ofBytes? [0x7B, 0x7D] = some SortedMap.empty := by decide
  rw [parse, if_neg (by rw [fileBytes_visible]; exact Bool.false_ne_true), bytes, mapping]
  exact Interner.empty_agrees.ofPairs_entries

end StringIndex

namespace FileStorage

variable {storage after : FileStorage} {root : Location} {tree later : FileTree}
  {steps : FilePath} {piece : Piece} {id target : NodeId} {bytes : List UInt8} {registry : Interner}

/-- Where a repository without blobs has its files. -/
inductive Filed : FilePath → Prop
  | names : Filed [StoragePaths.namesFile]
  | record {piece : Piece} (record : piece.Record) : Filed piece.steps

/-- Where it makes folders. -/
inductive Shelf : FilePath → Prop
  | blobs : Shelf ["blobs"]
  | record (id : NodeId) {steps : FilePath} (way : steps <+: id.shelf) : Shelf steps

theorem Shelf.short (shelf : Shelf steps) : steps.length ≤ 4 := by
  cases shelf with
  | blobs => decide
  | record id way => exact id.shelf_length ▸ way.length_le

theorem Shelf.first {name : String} {rest : FilePath} (shelf : Shelf (name :: rest)) :
    name = "blobs" ∨ name = "bundles" := by
  generalize whole : name :: rest = steps at shelf
  cases shelf with
  | blobs => exact Or.inl (List.cons.inj whole).1
  | record id way =>
      rw [← whole] at way
      exact Or.inr (List.cons_prefix_cons.mp way).1

theorem Filed.names_or_long (filed : Filed steps) :
    steps = [StoragePaths.namesFile] ∨ steps.length = 5 := by
  cases filed with
  | names => exact Or.inl rfl
  | record record =>
      obtain ⟨id, name, whole, _short⟩ := record.shelved
      right
      rw [whole, List.length_append, id.shelf_length]
      rfl

theorem Filed.not_shelf (filed : Filed steps) : ¬ Shelf steps := by
  intro shelf
  rcases filed.names_or_long with rfl | long
  · exact absurd shelf.first (by decide)
  · have short := shelf.short
    omega

/-- Below the root lies nothing but the files and folders of a repository without blobs. -/
structure Tidy (root : Location) (tree : FileTree) : Prop where
  closed : tree.Closed
  spoken : FileTree.speakable (FilePath.base root.path) = true
  rooted : tree.at? (FilePath.base root.path) = some .folder
  files : ∀ steps bytes, tree.at? (FilePath.base root.path ++ steps) = some (.file bytes) →
    Filed steps
  folders : ∀ steps, tree.at? (FilePath.base root.path ++ steps) = some .folder → Shelf steps

theorem Tidy.builds (tidy : Tidy root tree) {files folders : FilePath → Prop}
    (builds : FileTree.Builds files folders tree later)
    (filed : ∀ steps, files (FilePath.base root.path ++ steps) → Filed steps)
    (shelved : ∀ steps, folders (FilePath.base root.path ++ steps) → Shelf steps) :
    Tidy root later := by
  refine ⟨builds.closed, tidy.spoken, builds.kept _ tidy.rooted, fun steps bytes found => ?_,
    fun steps found => ?_⟩
  · rcases builds.files _ bytes found with there | new
    · exact tidy.files steps bytes there
    · exact filed steps new
  · rcases builds.folders _ found with there | new
    · exact tidy.folders steps there
    · exact shelved steps new

theorem Tidy.absent (tidy : Tidy root tree) (unfiled : ¬ Filed steps) (bare : ¬ Shelf steps) :
    tree.at? (FilePath.base root.path ++ steps) = none := by
  cases found : tree.at? (FilePath.base root.path ++ steps) with
  | none => rfl
  | some node =>
      cases node with
      | file bytes => exact absurd (tidy.files steps bytes found) unfiled
      | folder => exact absurd (tidy.folders steps found) bare

/-! ### Sites -/

theorem speakable_shelf (id : NodeId) : FileTree.speakable id.shelf = true := by
  rw [NodeId.shelf, ← List.singleton_append, FileTree.speakable_append, Bool.and_eq_true]
  refine ⟨by decide, ?_⟩
  rw [FileTree.speakable, FileTree.holdsNul, Bool.and_eq_true, Bool.not_eq_true',
    List.any_eq_false, List.all_eq_true]
  constructor
  · intro name member
    obtain ⟨chars, listed, rfl⟩ := List.mem_map.mp member
    rw [String.toList_ofList, Bool.not_eq_true, List.any_eq_false]
    intro char there nul
    have word := NodeId.alphanum_of_folderNames listed char there
    rw [of_decide_eq_true nul] at word
    cases word
  · intro name member
    obtain ⟨chars, listed, rfl⟩ := List.mem_map.mp member
    have digits := id.length_digits
    have short : chars.length ≤ 32 := by
      simp only [NodeId.folderNames, List.mem_cons, List.not_mem_nil, or_false] at listed
      rcases listed with rfl | rfl | rfl
      all_goals
        simp only [List.length_take, List.length_drop]
        omega
    rw [FileTree.longName_ofList (by rw [FileTree.nameLimit]; omega)]
    rfl

/-- Whatever is above a place below the root is above the root or below it. -/
theorem above_below {above front rest : FilePath} (way : above <+: front ++ rest) :
    above <+: front ∨ ∃ steps, above = front ++ steps ∧ steps <+: rest := by
  rcases List.prefix_or_prefix_of_prefix way (List.prefix_append front rest) with above | ⟨steps, rfl⟩
  · exact Or.inl above
  · exact Or.inr ⟨steps, rfl, (List.prefix_append_right_inj front).mp way⟩

theorem Tidy.clear (tidy : Tidy root tree) {steps : FilePath}
    (shelved : ∀ way, way <+: steps → Shelf way) :
    tree.Clear (FilePath.base root.path ++ steps) := by
  intro above way bytes found
  rcases above_below way with higher | ⟨lower, rfl, further⟩
  · exact tidy.closed.clear tidy.rooted above higher bytes found
  · exact (tidy.files lower bytes found).not_shelf (shelved lower further)

theorem Tidy.site (tidy : Tidy root tree) (record : piece.Record) : ∃ id name,
    piece.path root = FilePath.base root.path ++ NodeId.shelf id ++ [name] ∧
      tree.Site (FilePath.base root.path ++ id.shelf) name := by
  obtain ⟨id, name, named, short⟩ := record.shelved
  have path : piece.path root = FilePath.base root.path ++ id.shelf ++ [name] := by
    rw [Piece.path, named, List.append_assoc]
  refine ⟨id, name, path, path ▸ piece.undotted root, ?_,
    tidy.clear (fun _way => Shelf.record id), fun found => ?_⟩
  · rw [FileTree.speakable_append, FileTree.speakable_append, tidy.spoken, speakable_shelf, short]
    rfl
  · rw [← path] at found
    exact (Filed.record record).not_shelf (tidy.folders _ found)

/-! ### Records -/

/-- The folders of a repository without blobs are there, no local name has been numbered, and
nothing else lies below the root but records. -/
structure Shelved (root : Location) (tree : FileTree) : Prop where
  tidy : Tidy root tree
  bundles : tree.at? (FilePath.base root.path ++ ["bundles"]) = some .folder
  blobs : tree.at? (FilePath.base root.path ++ ["blobs"]) = some .folder
  names : piecesIn root tree .names = some (StringIndex.fileBytes Interner.empty)

theorem Shelved.builds (shelved : Shelved root tree) {files folders : FilePath → Prop}
    (builds : FileTree.Builds files folders tree later)
    (filed : ∀ steps, files (FilePath.base root.path ++ steps) → Filed steps)
    (made : ∀ steps, folders (FilePath.base root.path ++ steps) → Shelf steps)
    (unnamed : piecesIn root later .names = piecesIn root tree .names) : Shelved root later :=
  ⟨shelved.tidy.builds builds filed made, builds.kept _ shelved.bundles,
    builds.kept _ shelved.blobs, unnamed.trans shelved.names⟩

theorem Shelved.read (shelved : Shelved storage.root storage.tree) (record : piece.Record) :
    storage.readRecord (piece.path storage.root) = .ok (storage.held piece) := by
  obtain ⟨id, name, path, site⟩ := shelved.tidy.site record
  rw [readRecord, held, path, FileTree.read]
  rcases site.cases shelved.tidy.closed with ⟨bytes, there, found⟩ | ⟨absent, missing⟩
  · rw [found, there]
  · rw [missing, absent]

/-- A record can be written. -/
theorem Shelved.write (shelved : Shelved storage.root storage.tree) (record : piece.Record)
    (bytes : List UInt8) : ∃ after,
      storage.writeRecord (piece.path storage.root) bytes = (.ok (), after) ∧
      Becomes storage after (Function.update storage.held piece (some bytes)) ∧
      Shelved after.root after.tree := by
  obtain ⟨id, name, path, site⟩ := shelved.tidy.site record
  obtain ⟨wrote, builds⟩ := site.write shelved.tidy.closed bytes
  rw [← path] at wrote builds
  have written : storage.writeRecord (piece.path storage.root) bytes =
      (.ok (), storage.setTree (storage.tree.write (piece.path storage.root) bytes).2) := by
    change (Except.mapError StorageError.io (storage.tree.write _ bytes).1, _) = _
    rw [wrote]
    rfl
  have becomes := writeRecord_ok shelved.tidy.closed written
  refine ⟨_, written, becomes, shelved.builds builds ?_ ?_ ?_⟩
  · intro steps same
    rw [List.append_cancel_left same]
    exact .record record
  · intro steps way
    exact .record id ((List.prefix_append_right_inj _).mp way)
  · exact (congrFun becomes.held .names).trans (Function.update_of_ne record.ne_names ..)

/-- A record can be removed, whether it is there or not. -/
theorem Shelved.remove (shelved : Shelved storage.root storage.tree) (record : piece.Record) :
    ∃ after, storage.removeRecord (piece.path storage.root) = (.ok (), after) ∧
      Becomes storage after (Function.update storage.held piece none) ∧
      Shelved after.root after.tree := by
  obtain ⟨id, name, path, site⟩ := shelved.tidy.site record
  have closed := shelved.tidy.closed
  rcases site.cases closed with ⟨bytes, _there, found⟩ | ⟨absent, missing⟩
  · rw [← path] at found
    have erased : storage.tree.remove (piece.path storage.root) =
        .ok ⟨storage.tree.nodes.erase (piece.path storage.root)⟩ := by
      rw [FileTree.remove, found]
    have removed : storage.removeRecord (piece.path storage.root) =
        (.ok (), storage.setTree ⟨storage.tree.nodes.erase (piece.path storage.root)⟩) := by
      rw [removeRecord, erased]
    have becomes := removeRecord_becomes closed removed
    refine ⟨_, removed, becomes, shelved.builds
      (FileTree.remove_builds closed (piece.undotted storage.root) erased)
      (fun _steps none => none.elim) (fun _steps none => none.elim) ?_⟩
    exact (congrFun becomes.held .names).trans (Function.update_of_ne record.ne_names ..)
  · rw [← path] at missing
    have removed : storage.removeRecord (piece.path storage.root) = (.ok (), storage) := by
      rw [removeRecord, FileTree.remove, missing]
    exact ⟨_, removed, removeRecord_becomes closed removed, shelved⟩

/-! ### Opening -/

theorem join_single (root : Location) (name : String)
    (named : FilePath.segments name = [name]) (plain : FilePath.Plain name) :
    (root.join name).path = FilePath.base root.path ++ [name] := by
  rw [Location.join_path root plain, named]

theorem base_below (root : Location) (undotted : "." ∉ steps) :
    FilePath.base (FilePath.base root.path ++ steps) = FilePath.base root.path ++ steps := by
  apply FilePath.base_of_undotted
  rw [List.mem_append, not_or]
  exact ⟨FilePath.base_undotted root.path, undotted⟩

/-- No namespace is numbered in a file. -/
theorem Tidy.unregistered (tidy : Tidy root tree) :
    tree.has (root.join StoragePaths.namespacesFile).path = false := by
  have path := join_single root StoragePaths.namespacesFile (by decide) (by decide)
  have undotted : "." ∉ (root.join StoragePaths.namespacesFile).path :=
    FilePath.Plain.undotted (by decide) root.path
  apply FileTree.has_of_absent tidy.closed undotted
  rw [path]
  refine tidy.absent (fun filed => ?_) (fun shelf => absurd shelf.first (by decide))
  rcases filed.names_or_long with named | long
  · exact absurd named (by decide)
  · cases long

/-- A folder has been made below the root. -/
theorem Tidy.made (tidy : Tidy root tree) (undotted : "." ∉ steps)
    (shelves : ∀ way, way <+: steps → Shelf way)
    (made : tree.makeFolders (FilePath.base root.path ++ steps) = (.ok (), later)) :
    Tidy root later ∧ later.at? (FilePath.base root.path ++ steps) = some .folder := by
  have whole := base_below root undotted
  have builds := FileTree.makeFolders_builds tidy.closed (FilePath.base root.path ++ steps)
  have there := (FileTree.makeFolders_made made).2
  rw [made, whole] at builds
  rw [whole] at there
  exact ⟨tidy.builds builds (fun _steps none => none.elim)
    (fun way above => shelves way ((List.prefix_append_right_inj _).mp above)), there⟩

/-- A folder below the root that is there is left as it is. -/
theorem Tidy.there (tidy : Tidy root tree) (spoken : FileTree.speakable steps = true)
    (undotted : "." ∉ steps) (there : tree.at? (FilePath.base root.path ++ steps) = some .folder) :
    tree.makeFolders (FilePath.base root.path ++ steps) = (.ok (), tree) := by
  refine FileTree.makeFolders_there tidy.closed ?_ ((base_below root undotted).symm ▸ there)
  rw [FileTree.speakable_append, tidy.spoken, spoken]
  rfl

theorem shelf_bundles : ∀ way, way <+: ["bundles"] → Shelf way :=
  fun _way above => .record .zero (above.trans ⟨_, rfl⟩)

theorem shelf_blobs : ∀ way, way <+: ["blobs"] → Shelf way := by
  intro way above
  cases way with
  | nil => exact .record .zero List.nil_prefix
  | cons name rest =>
      obtain ⟨rfl, last⟩ := List.cons_prefix_cons.mp above
      rw [List.prefix_nil.mp last]
      exact .blobs

theorem Bare.rooted (bare : Bare root tree) (closed : tree.Closed)
    (made : tree.makeFolders root.path = (.ok (), later)) : Tidy root later := by
  obtain ⟨spoken, there⟩ := FileTree.makeFolders_made made
  have builds := FileTree.makeFolders_builds closed root.path
  rw [made] at builds
  refine ⟨builds.closed, (FileTree.speakable_base root.path).trans spoken, there,
    fun steps bytes found => ?_, fun steps found => ?_⟩
  · by_cases top : steps = []
    · rw [top, List.append_nil, there] at found
      cases found
    · have before := (builds.files _ bytes found).resolve_right id
      rw [bare steps top] at before
      cases before
  · by_cases top : steps = []
    · rw [top]
      exact .record .zero List.nil_prefix
    · rcases builds.folders _ found with before | above
      · rw [bare steps top] at before
        cases before
      · have longer := above.length_le
        have some := List.length_pos_iff.mpr top
        rw [List.length_append] at longer
        omega

/-- The file of the local names is made, with no name in it. -/
theorem Tidy.named (tidy : Tidy root tree) {index : StringIndex}
    (absent : tree.at? (root.join StoragePaths.namesFile).path = none)
    (opened : StringIndex.openFile (root.join StoragePaths.namesFile) tree = (.ok index, later)) :
    Tidy root later ∧ index.interner = Interner.empty := by
  have path := join_single root StoragePaths.namesFile (by decide) (by decide)
  have undotted := names_undotted root
  rw [StringIndex.openFile, FileTree.has_of_absent tidy.closed undotted absent,
    if_neg Bool.false_ne_true, StringIndex.create] at opened
  simp only [StringIndex.save, path] at opened
  rw [path] at absent undotted
  have site : tree.Site (FilePath.base root.path) StoragePaths.namesFile := by
    refine ⟨undotted, ?_, tidy.closed.clear tidy.rooted, by simp [absent]⟩
    rw [FileTree.speakable_append, tidy.spoken]
    decide
  have front : FilePath.base (FilePath.base root.path) = FilePath.base root.path :=
    FilePath.base_of_undotted (FilePath.base_undotted root.path)
  rw [FileTree.parent_concat undotted, FileTree.makeFolders_there tidy.closed tidy.spoken
    (front.symm ▸ tidy.rooted)] at opened
  dsimp only at opened
  rw [site.replace tidy.closed tidy.rooted] at opened
  cases opened
  refine ⟨tidy.builds (tidy.closed.builds_file tidy.rooted site.free) (fun steps same => ?_)
    (fun _steps none => none.elim), rfl⟩
  rw [List.append_cancel_left same]
  exact .names

theorem Bare.unregistered (bare : Bare root tree) : Unregistered root tree := by
  rw [Unregistered, join_single root _ (by decide) (by decide)]
  exact bare _ (by simp)

/-- A repository that is opened where nothing lies yet holds nothing. -/
theorem openRoot_bare (closed : tree.Closed) (bare : Bare root tree)
    (opened : openRoot root registry tree = (.ok storage, later)) :
    storage.root = root ∧ storage.tree = later ∧ Shelved root later ∧
      ∀ piece ≠ Piece.names, storage.held piece = none := by
  have laid := openRoot_laid (bare.left closed) bare.unregistered opened
  have written := laid.written
  have nothing (piece : Piece) (other : piece ≠ .names) : storage.held piece = none :=
    (laid.held piece other).trans (bare.none closed piece)
  have unnamed : tree.at? (root.join StoragePaths.namesFile).path = none := by
    rw [join_single root _ (by decide) (by decide)]
    exact bare _ (by simp)
  have bundles := join_single root "bundles" (by decide) (by decide)
  have blobs := join_single root "blobs" (by decide) (by decide)
  -- The four steps of opening, each from one tidy tree to the next: the root, the file of the local
  -- names, the folder of the records and that of the blobs.
  obtain ⟨rooted, numbered, shelved, paths, rooting, numbering, shelving, stocking, rfl⟩ :=
    openRoot_eq_ok opened
  have first := bare.rooted closed rooting
  have still := below_root_absent (by decide) unnamed
  rw [rooting] at still
  obtain ⟨second, empty⟩ := first.named still (openFolder_ok first.unregistered numbering).2
  rw [bundles] at shelving
  obtain ⟨third, bundled⟩ := second.made (by decide) shelf_bundles shelving
  have kept := FileTree.makeFolders_grown third.closed (root.join "blobs").path
  rw [stocking] at kept
  rw [blobs] at stocking
  obtain ⟨fourth, stocked⟩ := third.made (by decide) shelf_blobs stocking
  refine ⟨rfl, rfl, ⟨fourth, kept.folders _ bundled, stocked, ?_⟩, nothing⟩
  rw [← empty]
  exact written

/-- A repository that is opened anew is found as it was left. -/
theorem Shelved.reopen (shelved : Shelved root tree) (registry : Interner) :
    ∃ storage, openRoot root registry tree = (.ok storage, tree) ∧ storage.root = root ∧
      storage.tree = tree := by
  obtain ⟨tidy, bundled, stocked, named⟩ := shelved
  have rooting : tree.makeFolders root.path = (.ok (), tree) :=
    FileTree.makeFolders_there tidy.closed ((FileTree.speakable_base root.path).symm.trans tidy.spoken)
      tidy.rooted
  have read : tree.read (root.join StoragePaths.namesFile).path =
      .ok (StringIndex.fileBytes Interner.empty) := by
    rw [FileTree.read_ok tidy.closed (names_undotted root),
      ← FileTree.bytes?_eq_some tidy.closed (names_undotted root), names_path]
    exact named
  have there : tree.has (root.join StoragePaths.namesFile).path = true := by
    rw [names_path]
    exact FileTree.has_of_readable named
  have shelving : tree.makeFolders (root.join "bundles").path = (.ok (), tree) := by
    rw [join_single root _ (by decide) (by decide)]
    exact tidy.there (by decide) (by decide) bundled
  have stocking : tree.makeFolders (root.join "blobs").path = (.ok (), tree) := by
    rw [join_single root _ (by decide) (by decide)]
    exact tidy.there (by decide) (by decide) stocked
  refine ⟨⟨root, ⟨(root.join "blobs").path, ⟨StringIndex.volatile registry, ⟨Interner.empty,
    some (root.join StoragePaths.namesFile)⟩⟩, tree⟩⟩, ?_, rfl, rfl⟩
  simp only [openRoot, rooting, StoragePaths.openFolder, tidy.unregistered, Bool.false_eq_true,
    if_false, StringIndex.openFile, there, if_true, StringIndex.load, read, StringIndex.parse_empty,
    shelving, stocking]

end FileStorage

end BundleStore
