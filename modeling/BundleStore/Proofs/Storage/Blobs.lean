import BundleStore.Proofs.Index.Lives
import BundleStore.Proofs.Task.Meets
import BundleStore.Session

set_option autoImplicit false

/-! The blobs of a storage as its callers see them, in memory and in files, whatever identifiers
they ask for. Two identifiers may lead to one file, and one that is refused leads to none; those
that a storage names itself lead to a blob for each place of a property. -/

namespace BundleStore

/-- What can be read under an identifier, which identifiers the places of a property have, and
which of them lead to the same blob. -/
structure BlobView where
  bytes? : String → Option (List UInt8)
  names : PropertyId → Nat → String → Prop
  meet : String → String → Prop
  onePlace : ∀ {property left right blob other}, names property left blob →
    names property right other → meet blob other → left = right

namespace BlobView

variable {before after : BlobView} {reach larger : String → Prop}

/-- No blob differs but those that are met from within reach; names once given stay. -/
structure Spares (reach : String → Prop) (before after : BlobView) : Prop where
  meet : after.meet = before.meet
  bytes : ∀ {blob}, (∀ near, reach near → ¬ before.meet near blob) →
    after.bytes? blob = before.bytes? blob
  names : ∀ {property place blob}, before.names property place blob →
    after.names property place blob

theorem Spares.refl (reach : String → Prop) (view : BlobView) : Spares reach view view :=
  ⟨rfl, fun _ => rfl, fun given => given⟩

theorem Spares.trans {last : BlobView} (early : Spares reach before after)
    (late : Spares reach after last) : Spares reach before last := by
  refine ⟨late.meet.trans early.meet, fun out => ?_, fun given => late.names (early.names given)⟩
  rw [late.bytes, early.bytes out]
  rw [early.meet]
  exact out

theorem Spares.wider (spares : Spares reach before after) (wider : ∀ blob, reach blob → larger blob) :
    Spares larger before after :=
  ⟨spares.meet, fun out => spares.bytes (fun near within => out near (wider near within)),
    spares.names⟩

end BlobView

namespace StorageCall

/-- The blob that the call may change. -/
def Reaches : StorageCall → String → Prop
  | .putBlob blob _, other => other = blob
  | .removeBlob blob, other => other = blob
  | _, _ => False

/-- The call is one for blobs. None is put but under a name of the storage's own. -/
def AsksBlobs (view : BlobView) : StorageCall → Prop
  | .createBlobId _ _ => True
  | .putBlob blob _ => ∃ property place, view.names property place blob
  | .getBlob _ => True
  | .removeBlob _ => True
  | _ => False

/-- What an answered call comes to. -/
def GivesBlobs : (call : StorageCall) → call.Result → BlobView → Prop
  | .createBlobId property place, blob, after => after.names property place blob
  | .putBlob blob bytes, _, after => after.bytes? blob = some bytes
  | .getBlob blob, bytes, after => after.bytes? blob = some bytes
  | _, _, _ => True

/-- What a call shows that fails. -/
def LacksBlobs : StorageCall → BlobView → Prop
  | .getBlob blob, after => after.bytes? blob = none
  | _, _ => True

structure Handles (call : StorageCall) (answer : Except StorageError call.Result)
    (before after : BlobView) : Prop where
  spares : before.Spares call.Reaches after
  gives : ∀ result, answer = .ok result → call.GivesBlobs result after
  lacks : ∀ error, answer = .error error → call.LacksBlobs after

end StorageCall

/-! ### In memory -/

namespace MemoryStorage

def blobView (storage : MemoryStorage) : BlobView where
  bytes? := storage.blobs.find?
  names property place blob := blob = blobId property place
  meet := Eq
  onePlace left right same := blobId_place (left.symm.trans (same.trans right))

variable {storage : MemoryStorage}

theorem blobView_spares {blob : String} {blobs : SortedMap String (List UInt8)}
    (others : ∀ other, other ≠ blob → blobs.find? other = storage.blobs.find? other) :
    storage.blobView.Spares (· = blob) { storage with blobs }.blobView :=
  ⟨rfl, fun out => others _ (fun same => out blob rfl same.symm), fun given => given⟩

theorem serve_handles {call : StorageCall} (asks : call.AsksBlobs storage.blobView) :
    call.Handles (storage.serve call).1 storage.blobView (storage.serve call).2.blobView := by
  cases call with
  | createBlobId property place =>
      refine ⟨BlobView.Spares.refl .., fun blob same => ?_, fun _error failed => by cases failed⟩
      exact (Except.ok.inj same).symm
  | putBlob blob bytes =>
      refine ⟨blobView_spares (fun other differs => ?_), fun _unit _same => ?_,
        fun _error failed => by cases failed⟩
      · exact SortedMap.find?_insert_of_ne _ differs _
      · exact SortedMap.find?_insert_self ..
  | getBlob blob =>
      have found : (storage.serve (.getBlob blob)).1 = storage.getBlob blob := rfl
      rw [found, getBlob]
      change StorageCall.Handles (.getBlob blob) _ storage.blobView storage.blobView
      cases there : storage.blobs.find? blob with
      | some bytes =>
          refine ⟨BlobView.Spares.refl .., fun read same => ?_, fun _error failed => by cases failed⟩
          exact Except.ok.inj same ▸ there
      | none =>
          exact ⟨BlobView.Spares.refl .., fun _bytes same => (by cases same), fun _error _ => there⟩
  | removeBlob blob =>
      refine ⟨blobView_spares (fun other differs => ?_), fun _there _same => trivial,
        fun _error failed => by cases failed⟩
      exact SortedMap.find?_erase_of_ne _ differs
  | _ => exact asks.elim

end MemoryStorage

/-! ### In files -/

theorem FileTree.bytes?_of_dotted {tree : FileTree} {path : FilePath}
    (settled : FilePath.Settled path) (dotted : "." ∈ path) : tree.bytes? path = none := by
  obtain ⟨front, rfl⟩ := settled.of_dotted dotted
  rw [bytes?, read, find]
  split
  · rename_i bytes found
    split at found
    · cases found
    · cases walk_dot found
  · rfl
  · rfl

/-- What a closing dot leads to is a folder, and is not removed. -/
theorem FileTree.remove_undotted {tree after : FileTree} {path : FilePath}
    (settled : FilePath.Settled path) (removed : tree.remove path = .ok after) : "." ∉ path := by
  intro dotted
  have unread : tree.bytes? path = none := bytes?_of_dotted settled dotted
  rw [remove] at removed
  rw [bytes?, read] at unread
  split at removed
  · cases removed
  · cases removed
  · rename_i held found
    rw [found] at unread
    cases unread

theorem StringIndex.intern_spares {index after : StringIndex} {text : String} {tree later : FileTree}
    {answer : Except IndexError Nat} (closed : tree.Closed)
    (settled : ∀ location, index.file = some location → FilePath.Settled location.path)
    (interned : index.intern text tree = (answer, after, later)) :
    after.file = index.file ∧ after.interner.Extends index.interner ∧ later.Closed ∧
      ∀ path, "." ∉ path → (∀ location, index.file = some location → path ≠ location.path) →
        later.bytes? path = tree.bytes? path := by
  cases answer with
  | error cause =>
      obtain ⟨rfl, rfl⟩ := intern_error interned
      exact ⟨rfl, Interner.Extends.refl _, closed, fun _path _plain _aside => rfl⟩
  | ok number =>
      have knows := intern_knows interned
      refine ⟨knows.file, knows.extended, ?_⟩
      rcases intern_ok interned with ⟨_known, rfl, rfl⟩ | ⟨absent, _number, rfl, saved⟩
      · exact ⟨closed, fun _path _plain _aside => rfl⟩
      · cases file : index.file with
        | none =>
            simp only [file] at saved
            subst saved
            exact ⟨closed, fun _path _plain _aside => rfl⟩
        | some location =>
            simp only [file] at saved
            have undotted := FileTree.replace_undotted (settled location file) saved
            have sets := save_ok closed undotted saved
            exact ⟨sets.closed, fun path plain aside => sets.others path plain (aside location rfl)⟩

namespace BlobFolder

variable {store after : BlobFolder} {blob other : String} {path : FilePath} {bytes : List UInt8}

/-- Both identifiers lead to one file. -/
def Meet (store : BlobFolder) (left right : String) : Prop :=
  ∃ path, store.locate left = .ok path ∧ store.locate right = .ok path

theorem locate_plain (plain : FilePath.Plain blob) :
    store.locate blob = .ok (FilePath.base store.folder ++ FilePath.segments blob) := by
  have allowed : (FilePath.segments blob).all segmentAllowed = true := by
    rw [List.all_eq_true]
    intro segment member
    obtain ⟨some, _notDot, notUp⟩ := plain segment member
    simp [segmentAllowed, some, notUp]
  rw [locate, if_pos allowed, plain.resolve]

def blobView (store : BlobFolder) : BlobView where
  bytes? blob := (store.get blob).toOption
  names := store.paths.Names
  meet := store.Meet
  onePlace left right meet := by
    obtain ⟨path, here, there⟩ := meet
    rw [locate_plain left.plain] at here
    rw [locate_plain right.plain, ← here] at there
    have same := FilePath.segments_injective (List.append_cancel_left (Except.ok.inj there))
    exact (left.told (same ▸ right)).2

/-- The files that tell the numbers of names, if there are any, lie outside the folder of the
blobs. -/
structure KeepsBlobs (store : BlobFolder) : Prop where
  closed : store.tree.Closed
  settled : FilePath.Settled store.folder
  outside : ∀ index, index = store.paths.namespaces ∨ index = store.paths.names →
    ∀ location, index.file = some location →
      FilePath.Settled location.path ∧ ¬ FilePath.base store.folder <+: location.path

theorem locate_ok (settled : FilePath.Settled store.folder) (located : store.locate blob = .ok path) :
    FilePath.Settled path ∧ FilePath.base store.folder <+: FilePath.base path := by
  obtain ⟨onward, rfl⟩ := locate_onward located
  refine ⟨FilePath.resolve_settled settled blob, ?_⟩
  rw [FilePath.base_resolve onward]
  exact List.prefix_append ..

theorem toOption_get (store : BlobFolder) (blob : String) :
    (store.get blob).toOption = (store.locate blob).toOption.bind store.tree.bytes? := by
  rw [get]
  cases store.locate blob with
  | error cause => rfl
  | ok path =>
      change _ = store.tree.bytes? path
      dsimp only
      rw [FileTree.bytes?]
      cases store.tree.read path with
      | ok bytes => rfl
      | error cause => cases cause <;> rfl

/-- What is true of the paths that are no folders by their spelling is true of all. -/
theorem get_same (keeps : store.KeepsBlobs) (folder : after.folder = store.folder)
    (same : ∀ path, store.locate blob = .ok path → "." ∉ path →
      after.tree.bytes? path = store.tree.bytes? path) :
    (after.get blob).toOption = (store.get blob).toOption := by
  have located : after.locate blob = store.locate blob := by rw [locate, locate, folder]
  rw [toOption_get, toOption_get, located]
  cases there : store.locate blob with
  | error cause => rfl
  | ok path =>
      change after.tree.bytes? path = store.tree.bytes? path
      by_cases dotted : "." ∈ path
      · have settled := (locate_ok keeps.settled there).1
        rw [FileTree.bytes?_of_dotted settled dotted, FileTree.bytes?_of_dotted settled dotted]
      · exact same path there dotted

theorem KeepsBlobs.becomes (keeps : store.KeepsBlobs) {tree : FileTree} (closed : tree.Closed) :
    KeepsBlobs { store with tree } := ⟨closed, keeps.settled, keeps.outside⟩

theorem sets_spares (keeps : store.KeepsBlobs) {tree : FileTree} {held : Option (List UInt8)}
    (located : store.locate blob = .ok path) (sets : FileTree.Sets path held store.tree tree) :
    store.blobView.Spares (· = blob) { store with tree }.blobView := by
  refine ⟨rfl, fun {other} out => get_same keeps rfl (fun place there undotted => ?_),
    fun given => given⟩
  refine sets.others place undotted (fun same => out blob rfl ?_)
  exact ⟨path, located, same ▸ there⟩

/-- The path is not that of a file in which numbers of names are kept. -/
def Aside (store : BlobFolder) (path : FilePath) : Prop :=
  ∀ index, index = store.paths.namespaces ∨ index = store.paths.names →
    ∀ location, index.file = some location → path ≠ location.path

/-- Whatever the indexes have become, they keep to their files, and no blob has changed. -/
theorem reindexed_spares (keeps : store.KeepsBlobs) (paths : StoragePaths) {tree : FileTree}
    (spaceFile : paths.namespaces.file = store.paths.namespaces.file)
    (spaceExtends : paths.namespaces.interner.Extends store.paths.namespaces.interner)
    (namesFile : paths.names.file = store.paths.names.file)
    (namesExtends : paths.names.interner.Extends store.paths.names.interner) (closed : tree.Closed)
    (same : ∀ path, "." ∉ path → store.Aside path → tree.bytes? path = store.tree.bytes? path) :
    KeepsBlobs ⟨store.folder, paths, tree⟩ ∧
      store.blobView.Spares (fun _ => False) (blobView ⟨store.folder, paths, tree⟩) := by
  refine ⟨⟨closed, keeps.settled, ?_⟩, rfl, fun _out => ?_,
    fun given => given.later spaceExtends namesExtends⟩
  · rintro index (rfl | rfl) location file
    · exact keeps.outside _ (Or.inl rfl) location (spaceFile.symm.trans file)
    · exact keeps.outside _ (Or.inr rfl) location (namesFile.symm.trans file)
  · refine get_same keeps rfl (fun path located undotted => ?_)
    refine same path undotted (fun index either location file whole => ?_)
    apply (keeps.outside index either location file).2
    have within := (locate_ok keeps.settled located).2
    rwa [FilePath.base_of_undotted undotted, whole] at within

theorem createId_handles (keeps : store.KeepsBlobs) {property : PropertyId} {place : Nat}
    {answer : Except StorageError String} (created : store.createId property place = (answer, after)) :
    after.KeepsBlobs ∧
      (StorageCall.createBlobId property place).Handles answer store.blobView after.blobView := by
  cases spaced : store.paths.namespaces.intern property.name.namespaceUri store.tree with
  | mk spaceAnswer rest =>
  obtain ⟨spaces, middle⟩ := rest
  obtain ⟨spaceFile, spaceExtends, middleClosed, middleSame⟩ := StringIndex.intern_spares keeps.closed
    (fun location file => (keeps.outside _ (Or.inl rfl) location file).1) spaced
  simp only [createId, StoragePaths.blobPath, StoragePaths.propertyChars, spaced] at created
  cases spaceAnswer with
  | error cause =>
      cases created
      obtain ⟨kept, spares⟩ := reindexed_spares keeps ⟨spaces, store.paths.names⟩ spaceFile
        spaceExtends rfl (Interner.Extends.refl _) middleClosed
        (fun path plain aside => middleSame path plain (aside _ (Or.inl rfl)))
      exact ⟨kept, spares, fun _blob impossible => (by cases impossible), fun _error _ => trivial⟩
  | ok spaceNumber =>
      cases named : store.paths.names.intern property.name.localName middle with
      | mk nameAnswer rest =>
      obtain ⟨names, tree⟩ := rest
      obtain ⟨namesFile, extended, treeClosed, treeSame⟩ := StringIndex.intern_spares middleClosed
        (fun location file => (keeps.outside _ (Or.inr rfl) location file).1) named
      obtain ⟨kept, spares⟩ := reindexed_spares keeps ⟨spaces, names⟩ spaceFile
        spaceExtends namesFile extended treeClosed (fun path plain aside =>
          (treeSame path plain (aside _ (Or.inr rfl))).trans
            (middleSame path plain (aside _ (Or.inl rfl))))
      simp only [named] at created
      cases nameAnswer with
      | error cause =>
          cases created
          exact ⟨kept, spares, fun _blob impossible => (by cases impossible),
            fun _error _ => trivial⟩
      | ok nameNumber =>
          cases created
          refine ⟨kept, spares, fun blob given => ?_, fun _error failed => by cases failed⟩
          refine ⟨spaceNumber, nameNumber, (StringIndex.intern_knows spaced).number,
            (StringIndex.intern_knows named).number, ?_⟩
          rw [← Except.ok.inj given]
          simp [StoragePaths.blobChars]

theorem put_handles (keeps : store.KeepsBlobs) (plain : FilePath.Plain blob)
    {answer : Except StorageError Unit} (put : store.put blob bytes = (answer, after)) :
    after.KeepsBlobs ∧
      (StorageCall.putBlob blob bytes).Handles answer store.blobView after.blobView := by
  have located := @locate_plain store blob plain
  have undotted : "." ∉ FilePath.base store.folder ++ FilePath.segments blob := by
    rw [← plain.resolve]
    exact plain.undotted store.folder
  simp only [BlobFolder.put, located] at put
  cases written : store.tree.write (FilePath.base store.folder ++ FilePath.segments blob) bytes with
  | mk result tree =>
      rw [written] at put
      cases put
      cases result with
      | error cause =>
          have same := FileTree.write_error keeps.closed written
          refine ⟨keeps.becomes same.closed, ⟨rfl, fun _out => ?_, fun given => given⟩,
            fun _unit impossible => (by cases impossible), fun _error _ => trivial⟩
          exact get_same keeps rfl (fun path _there plain => same.bytes path plain)
      | ok _unit =>
          have sets := FileTree.write_ok keeps.closed undotted written
          refine ⟨keeps.becomes sets.closed, sets_spares keeps located sets, fun _unit _ => ?_,
            fun _error failed => by cases failed⟩
          change (BlobFolder.get { store with tree } blob).toOption = some bytes
          rw [toOption_get, locate_plain plain]
          exact sets.here

theorem get_handles (store : BlobFolder) (blob : String) :
    (StorageCall.getBlob blob).Handles (store.get blob) store.blobView store.blobView := by
  refine ⟨BlobView.Spares.refl .., fun bytes given => ?_, fun error failed => ?_⟩
  · exact congrArg Except.toOption given
  · exact congrArg Except.toOption failed

theorem remove_handles (keeps : store.KeepsBlobs) {answer : Except StorageError Bool}
    (removed : store.remove blob = (answer, after)) :
    after.KeepsBlobs ∧
      (StorageCall.removeBlob blob).Handles answer store.blobView after.blobView := by
  have still : store.KeepsBlobs ∧
      (StorageCall.removeBlob blob).Handles answer store.blobView store.blobView :=
    ⟨keeps, BlobView.Spares.refl .., fun _there _ => trivial, fun _error _ => trivial⟩
  rw [BlobFolder.remove] at removed
  cases located : store.locate blob with
  | error cause =>
      simp only [located] at removed
      cases removed
      exact still
  | ok path =>
      simp only [located] at removed
      cases erased : store.tree.remove path with
      | error cause =>
          simp only [erased] at removed
          split at removed
          · rename_i impossible
            cases impossible
          · cases removed
            exact still
          · cases removed
            exact still
      | ok tree =>
          simp only [erased] at removed
          cases removed
          have undotted := FileTree.remove_undotted (locate_ok keeps.settled located).1 erased
          have sets := (FileTree.remove_ok keeps.closed undotted erased).1
          exact ⟨keeps.becomes sets.closed, sets_spares keeps located sets,
            fun _there _ => trivial, fun _error _ => trivial⟩

end BlobFolder

namespace StringIndex

/-- An index that is opened keeps its mapping where it was opened. -/
theorem openFile_file {location : Location} {index : StringIndex} {tree after : FileTree}
    (closed : tree.Closed) (undotted : "." ∉ location.path)
    (opened : openFile location tree = (.ok index, after)) :
    index.file = some location ∧ after.Closed := by
  rw [openFile] at opened
  split at opened
  · simp only [load] at opened
    split at opened
    · cases opened
    · split at opened
      · cases opened
      · cases opened
        exact ⟨rfl, closed⟩
  · have grown := FileTree.makeFolders_grown closed (FilePath.parent location.path)
    rw [create] at opened
    split at opened
    · cases opened
    · rename_i middle made
      rw [made] at grown
      split at opened
      · cases opened
      · rename_i saved
        cases opened
        exact ⟨rfl, (save_ok grown.closed undotted saved).closed⟩

theorem load_file {location : Location} {index : StringIndex} {tree : FileTree}
    (loaded : load location tree = .ok index) : index.file = some location := by
  rw [load] at loaded
  split at loaded
  · cases loaded
  · split at loaded
    · cases loaded
    · cases loaded
      rfl

end StringIndex

namespace FileStorage

variable {storage : FileStorage}

theorem openFolder_files {root : Location} {registry : Interner} {tree after : FileTree}
    {paths : StoragePaths} (closed : tree.Closed)
    (opened : StoragePaths.openFolder root registry tree = (.ok paths, after)) :
    (∀ location, paths.namespaces.file = some location →
      location = root.join StoragePaths.namespacesFile) ∧
      paths.names.file = some (root.join StoragePaths.namesFile) ∧ after.Closed := by
  have undotted : "." ∉ (root.join StoragePaths.namesFile).path := names_undotted root
  simp only [StoragePaths.openFolder] at opened
  split at opened
  · cases opened
  · rename_i namespaces given
    split at opened
    · cases opened
    · rename_i names later numbering
      cases opened
      refine ⟨fun location file => ?_, StringIndex.openFile_file closed undotted numbering⟩
      split at given
      · exact Option.some.inj (file.symm.trans (StringIndex.load_file given))
      · cases given
        cases file

/-- However a repository in files comes to be opened, it keeps its blobs in order. -/
theorem openRoot_keepsBlobs {root : Location} {registry : Interner} {tree after : FileTree}
    (closed : tree.Closed) (opened : openRoot root registry tree = (.ok storage, after)) :
    storage.blobs.KeepsBlobs := by
  obtain ⟨rooted, numbered, shelved, paths, rooting, numbering, shelving, stocking, rfl⟩ :=
    openRoot_eq_ok opened
  have first := FileTree.makeFolders_grown closed root.path
  rw [rooting] at first
  obtain ⟨spaces, names, numberedClosed⟩ := openFolder_files first.closed numbering
  have second := FileTree.makeFolders_grown numberedClosed (root.join "bundles").path
  rw [shelving] at second
  have third := FileTree.makeFolders_grown second.closed (root.join "blobs").path
  rw [stocking] at third
  have plainly {name : String} (plain : FilePath.Plain name) :
      FilePath.Settled (root.join name).path :=
    fun dotted => plain.undotted root.path (List.dropLast_subset _ dotted)
  have aside {name : String} (named : FilePath.segments name = [name])
      (plain : FilePath.Plain name) (other : name ≠ "blobs") :
      ¬ FilePath.base (root.join "blobs").path <+: (root.join name).path := by
    rw [Location.join_path root plain, Location.join_path root (by decide), named,
      show FilePath.segments "blobs" = ["blobs"] by decide, FilePath.base_of_undotted]
    · intro within
      have whole := within.eq_of_length (by simp)
      exact other (List.singleton_inj.mp (List.append_cancel_left whole)).symm
    · rw [List.mem_append, not_or]
      exact ⟨FilePath.base_undotted root.path, by decide⟩
  refine ⟨third.closed, plainly (by decide), ?_⟩
  rintro index (rfl | rfl) location file
  · obtain rfl := spaces location file
    exact ⟨plainly (by decide), aside (by decide) (by decide) (by decide)⟩
  · obtain rfl := Option.some.inj (names.symm.trans file)
    exact ⟨plainly (by decide), aside (by decide) (by decide) (by decide)⟩

theorem serve_handles {call : StorageCall} (keeps : storage.blobs.KeepsBlobs)
    (asks : call.AsksBlobs storage.blobs.blobView) :
    (storage.serve call).2.1.blobs.KeepsBlobs ∧
      call.Handles (storage.serve call).1 storage.blobs.blobView
        (storage.serve call).2.1.blobs.blobView := by
  cases call with
  | createBlobId property place => exact BlobFolder.createId_handles keeps rfl
  | putBlob blob bytes =>
      obtain ⟨_property, _place, named⟩ := asks
      exact BlobFolder.put_handles keeps (StoragePaths.Names.plain named) rfl
  | getBlob blob => exact ⟨keeps, BlobFolder.get_handles storage.blobs blob⟩
  | removeBlob blob => exact BlobFolder.remove_handles keeps rfl
  | _ => exact asks.elim

end FileStorage

/-! ### Either storage -/

namespace Storage

def blobView : Storage → BlobView
  | .memory contents => contents.blobView
  | .unchecked contents => contents.blobView
  | .files contents => contents.blobs.blobView

/-- As every storage is that has been opened, whoever has left it. -/
def KeepsBlobs (storage : Storage) : Prop :=
  ∀ contents, storage.files? = some contents → contents.blobs.KeepsBlobs

variable {storage : Storage}

theorem serve_handles {call : StorageCall} (keeps : storage.KeepsBlobs)
    (asks : call.AsksBlobs storage.blobView) :
    (storage.serve call).2.1.KeepsBlobs ∧
      call.Handles (storage.serve call).1 storage.blobView (storage.serve call).2.1.blobView := by
  cases storage with
  | memory contents =>
      exact ⟨fun _files impossible => (by cases impossible), MemoryStorage.serve_handles asks⟩
  | unchecked contents =>
      have served := @MemoryStorage.serve_handles contents call asks
      have unfiled (later : MemoryStorage) : (Storage.unchecked later).KeepsBlobs :=
        fun _files impossible => by cases impossible
      cases call with
      | checkConsistency ids recursive repair => exact asks.elim
      | _ => exact ⟨unfiled _, served⟩
  | files contents =>
      obtain ⟨still, handles⟩ := FileStorage.serve_handles (keeps contents rfl) asks
      exact ⟨fun _files same => Option.some.inj same ▸ still, handles⟩

end Storage

end BundleStore
