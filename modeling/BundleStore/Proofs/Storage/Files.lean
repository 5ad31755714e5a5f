import BundleStore.Proofs.Storage.Pieces

set_option autoImplicit false

/-! Storage in files is a backend, as long as it is asked for no blobs but those that it names
itself: names that are spelled differently may lead to one file. Folders that have been made and
strings that have been numbered stay when a call fails, but nothing that can be read is different.
What is there can be read back, whatever else may fail. -/

namespace BundleStore

/-- What is there can be read; any other call may fail. -/
def Faults.readable : Faults
  | .loadBundle id, _, contents => contents.bundles id = .none
  | .getBlob blob, _, contents => contents.blobs blob = .none
  | _, _, _ => True

namespace FileStorage

variable {storage after : FileStorage} {id target : NodeId} {blob : String} {bytes : List UInt8}

/-! ### Blobs -/

theorem locate_eq (folder : storage.blobs.folder = (storage.root.join "blobs").path)
    (plain : FilePath.Plain blob) :
    storage.blobs.locate blob = .ok ((Piece.blob ⟨blob, plain⟩).path storage.root) := by
  have allowed : (FilePath.segments blob).all BlobFolder.segmentAllowed = true := by
    rw [List.all_eq_true]
    intro segment member
    obtain ⟨some, _notDot, notUp⟩ := plain segment member
    simp [BlobFolder.segmentAllowed, some, notUp]
  rw [BlobFolder.locate, if_pos allowed, folder,
    resolve_below (by decide) (by decide) plain storage.root]
  rfl

theorem put_becomes {result : Except StorageError Unit} (closed : storage.tree.Closed)
    (folder : storage.blobs.folder = (storage.root.join "blobs").path)
    (plain : FilePath.Plain blob)
    (put : storage.onBlobs (storage.blobs.put blob bytes) = (result, after)) :
    Becomes storage after (match result with
      | .ok () => Function.update storage.held (.blob ⟨blob, plain⟩) (some bytes)
      | .error _ => storage.held) := by
  rw [BlobFolder.put, locate_eq folder plain] at put
  have written : storage.writeRecord ((Piece.blob ⟨blob, plain⟩).path storage.root) bytes =
      (result, after) := put
  cases result with
  | ok _unit => exact writeRecord_ok closed written
  | error cause => exact writeRecord_error closed written

theorem get_ok (folder : storage.blobs.folder = (storage.root.join "blobs").path)
    (plain : FilePath.Plain blob) (got : storage.blobs.get blob = .ok bytes) :
    storage.held (.blob ⟨blob, plain⟩) = some bytes := by
  rw [BlobFolder.get, locate_eq folder plain] at got
  unfold held FileTree.bytes?
  change (storage.blobs.tree.read _).toOption = _
  cases read : storage.blobs.tree.read ((Piece.blob ⟨blob, plain⟩).path storage.root) with
  | ok found =>
      simp only [read] at got
      cases got
      rfl
  | error cause =>
      simp only [read] at got
      cases cause <;> cases got

theorem get_held (folder : storage.blobs.folder = (storage.root.join "blobs").path)
    (plain : FilePath.Plain blob) (there : storage.held (.blob ⟨blob, plain⟩) = some bytes) :
    storage.blobs.get blob = .ok bytes := by
  rw [BlobFolder.get, locate_eq folder plain]
  unfold held FileTree.bytes? at there
  change (storage.blobs.tree.read _).toOption = _ at there
  cases read : storage.blobs.tree.read ((Piece.blob ⟨blob, plain⟩).path storage.root) with
  | ok found =>
      rw [read] at there
      cases there
      simp only [read]
  | error cause =>
      rw [read] at there
      cases there

theorem remove_becomes {result : Except StorageError Bool} (closed : storage.tree.Closed)
    (folder : storage.blobs.folder = (storage.root.join "blobs").path)
    (plain : FilePath.Plain blob)
    (removed : storage.onBlobs (storage.blobs.remove blob) = (result, after)) :
    match result with
    | .ok there => Becomes storage after (Function.update storage.held (.blob ⟨blob, plain⟩) none) ∧
        there = (storage.held (.blob ⟨blob, plain⟩)).isSome
    | .error _ => Becomes storage after storage.held := by
  rw [BlobFolder.remove, locate_eq folder plain] at removed
  have undotted := (Piece.blob ⟨blob, plain⟩).undotted storage.root
  cases erased : storage.blobs.tree.remove ((Piece.blob ⟨blob, plain⟩).path storage.root) with
  | ok tree =>
      simp only [erased] at removed
      cases removed
      obtain ⟨sets, there⟩ := FileTree.remove_ok closed undotted erased
      exact ⟨becomes_of_sets sets, there.symm⟩
  | error cause =>
      have absent : storage.held (.blob ⟨blob, plain⟩) = none := FileTree.remove_error erased
      simp only [erased] at removed
      cases cause
      case notFound =>
        cases removed
        rw [absent]
        refine ⟨?_, rfl⟩
        rw [← absent, Function.update_eq_self]
        exact Becomes.refl closed
      all_goals
        cases removed
        exact Becomes.refl closed

/-! ### Numbers -/

/-- The numbers of the namespaces are known to this session only, those of the local names are in
their file as well. -/
structure Numbered (storage : FileStorage) : Prop where
  unkept : storage.blobs.paths.namespaces.file = none
  located : storage.blobs.paths.names.file = some (storage.root.join StoragePaths.namesFile)
  written : storage.held .names =
    some (StringIndex.fileBytes storage.blobs.paths.names.interner)
  agrees : storage.blobs.paths.Agrees

theorem Numbered.becomes {held : Piece → Option (List UInt8)} (numbered : storage.Numbered)
    (becomes : Becomes storage after held) (same : held .names = storage.held .names) :
    after.Numbered := by
  obtain ⟨root, _folder, paths, _closed, pieces⟩ := becomes
  refine ⟨paths ▸ numbered.unkept, ?_, ?_, paths ▸ numbered.agrees⟩
  · rw [paths, root]
    exact numbered.located
  · rw [pieces, same, paths]
    exact numbered.written

/-- Strings may have been numbered; nothing else is different but the file of the local names. -/
structure Renumbers (before after : FileStorage) : Prop where
  root : after.root = before.root
  folder : after.blobs.folder = before.blobs.folder
  closed : after.tree.Closed
  spaces : after.blobs.paths.namespaces.interner.Extends before.blobs.paths.namespaces.interner
  locals : after.blobs.paths.names.interner.Extends before.blobs.paths.names.interner
  numbered : after.Numbered
  held : ∀ piece ≠ Piece.names, after.held piece = before.held piece

theorem createId_renumbers {property : PropertyId} {place : Nat}
    {result : Except StorageError String} (closed : storage.tree.Closed)
    (numbered : storage.Numbered)
    (created : storage.onBlobs (storage.blobs.createId property place) = (result, after)) :
    Renumbers storage after ∧
      ∀ blob, result = .ok blob → after.blobs.paths.Names property place blob := by
  obtain ⟨unkept, located, written, agrees⟩ := numbered
  obtain ⟨spaceNumber, spaces, spaced⟩ := StringIndex.intern_volatile unkept
    property.name.namespaceUri storage.blobs.tree
  have spaceKnows := StringIndex.intern_knows spaced
  have spaceAgrees := StringIndex.intern_agrees agrees.spaces spaced
  have spaceFile : spaces.file = none := spaceKnows.file.trans unkept
  have keeps : storage.blobs.paths.names.Keeps (storage.root.join StoragePaths.namesFile)
      storage.tree := by
    refine ⟨located, ?_⟩
    rw [names_path]
    exact written
  simp only [BlobFolder.createId, StoragePaths.blobPath, StoragePaths.propertyChars, spaced]
    at created
  cases named : storage.blobs.paths.names.intern property.name.localName storage.blobs.tree with
  | mk outcome rest =>
      obtain ⟨names, tree⟩ := rest
      simp only [named] at created
      cases outcome with
      | error cause =>
          obtain ⟨rfl, rfl⟩ := StringIndex.intern_error named
          cases created
          refine ⟨⟨rfl, rfl, closed, spaceKnows.extended, Interner.Extends.refl _,
            ⟨spaceFile, located, written, spaceAgrees, agrees.locals⟩, fun _piece _other => rfl⟩, ?_⟩
          intro blob impossible
          cases impossible
      | ok nameNumber =>
          have nameKnows := StringIndex.intern_knows named
          obtain ⟨kept, sets⟩ := StringIndex.intern_kept closed (names_undotted storage.root) keeps
            named
          rw [names_path] at sets
          cases created
          refine ⟨⟨rfl, rfl, sets.closed, spaceKnows.extended, nameKnows.extended,
            ⟨spaceFile, kept.1, sets.here, spaceAgrees, StringIndex.intern_agrees agrees.locals named⟩,
            fun piece other => ?_⟩, ?_⟩
          · have pieces := congrFun (held_of_sets sets) piece
            rw [Function.update_of_ne other] at pieces
            exact pieces
          · intro blob given
            refine ⟨spaceNumber, nameNumber, spaceKnows.number, nameKnows.number, ?_⟩
            rw [← Except.ok.inj given]
            simp [StoragePaths.blobChars]

/-! ### Records -/

section

variable {pieces : Pieces} {slots : PropertyId → Nat → Option String}

theorem loadBundle_ok {found : Option Bundle} (loaded : storage.loadBundle id = .ok found) :
    found = Pieces.bundle? storage.held id := by
  rw [loadBundle, bundlePath_eq] at loaded
  split at loaded
  · cases loaded
  · rename_i absent
    cases loaded
    rw [Pieces.bundle?, ← readRecord_ok absent]
    rfl
  · rename_i bytes read
    rw [Pieces.bundle?, ← readRecord_ok read, Option.bind_some]
    cases decoded : Record.decode Record.bundle bytes ("bundle " ++ id.text) with
    | error cause =>
        rw [decoded] at loaded
        cases loaded
    | ok bundle =>
        rw [decoded] at loaded
        cases loaded
        rfl

theorem loadBundle_held {bundle : Bundle} (held : Pieces.bundle? storage.held id = some bundle) :
    storage.loadBundle id = .ok (some bundle) := by
  obtain ⟨bytes, there, decoded⟩ := Option.bind_eq_some_iff.mp held
  rw [loadBundle, bundlePath_eq, readRecord_held there]
  cases outcome : Record.decode Record.bundle bytes ("bundle " ++ id.text) with
  | error cause =>
      rw [outcome] at decoded
      cases decoded
  | ok found =>
      rw [outcome] at decoded
      cases decoded
      simp only [outcome]
      rfl

theorem loadReferences_ok {found : Option References}
    (loaded : storage.loadReferences target = .ok found) :
    found = Pieces.references? storage.held target := by
  rw [loadReferences, referencesPath_eq] at loaded
  split at loaded
  · cases loaded
  · rename_i absent
    cases loaded
    rw [Pieces.references?, ← readRecord_ok absent]
    rfl
  · rename_i bytes read
    rw [Pieces.references?, ← readRecord_ok read, Option.bind_some]
    cases decoded : Record.decode Record.references bytes ("references " ++ target.text) with
    | error cause =>
        rw [decoded] at loaded
        cases loaded
    | ok references =>
        rw [decoded] at loaded
        cases loaded
        rfl

/-! ### The backend -/

/-- In order, with the blob identifiers given since the storage was opened. -/
structure Sound (storage : FileStorage) (slots : PropertyId → Nat → Option String) : Prop where
  closed : storage.tree.Closed
  folder : storage.blobs.folder = (storage.root.join "blobs").path
  numbered : storage.Numbered
  recorded : Pieces.Recorded storage.held
  given : ∀ property place blob, slots property place = some blob →
    storage.blobs.paths.Names property place blob

theorem Sound.becomes (sound : storage.Sound slots) (becomes : Becomes storage after pieces)
    (same : pieces .names = storage.held .names) (recorded : pieces.Recorded) :
    after.Sound slots := by
  refine ⟨becomes.closed, ?_, sound.numbered.becomes becomes same, ?_, ?_⟩
  · rw [becomes.folder, becomes.root]
    exact sound.folder
  · rw [becomes.held]
    exact recorded
  · intro property place blob given
    rw [becomes.paths]
    exact sound.given property place blob given

/-- Storage in files, and the blob identifiers it has given since it was opened. -/
structure Kept where
  storage : FileStorage
  slots : PropertyId → Nat → Option String
  sound : storage.Sound slots

def Kept.contents (kept : Kept) : Contents :=
  { bundles := Pieces.bundle? kept.storage.held
    references := Pieces.references? kept.storage.held
    blobs := Pieces.blob? kept.storage.held
    slots := kept.slots
    filed := fun held => (kept.sound.recorded.bundle? held).1
    recorded := fun held => (kept.sound.recorded.bundle? held).2
    oneNode := fun left right =>
      ((kept.sound.given _ _ _ left).told (kept.sound.given _ _ _ right)).1
    onePlace := fun left right =>
      ((kept.sound.given _ _ _ left).told (kept.sound.given _ _ _ right)).2 }

/-- No two names lead to one file. -/
def Clean : StorageCall → Prop
  | .checkConsistency _ _ _ => False
  | .putBlob blob _ => FilePath.Plain blob
  | .getBlob blob => FilePath.Plain blob
  | .removeBlob blob => FilePath.Plain blob
  | _ => True

variable {kept : Kept}

theorem Kept.becomes (kept : Kept) (becomes : Becomes kept.storage after pieces)
    (same : pieces .names = kept.storage.held .names) (recorded : pieces.Recorded) :
    ∃ next : Kept, next.storage = after ∧ next.slots = kept.slots ∧ next.storage.held = pieces :=
  ⟨⟨after, kept.slots, kept.sound.becomes becomes same recorded⟩, rfl, rfl, becomes.held⟩

/-- Nothing that can be read is different. -/
theorem Kept.still (kept : Kept) (becomes : Becomes kept.storage after kept.storage.held) :
    ∃ next : Kept, next.storage = after ∧ next.contents = kept.contents := by
  obtain ⟨next, same, slots, held⟩ := kept.becomes becomes rfl kept.sound.recorded
  exact ⟨next, same, Contents.ext (congrArg Pieces.bundle? held)
    (congrArg Pieces.references? held) (congrArg Pieces.blob? held) slots⟩

theorem Kept.sets_bundle (kept : Kept) {bytes : Option (List UInt8)} {found : Option Bundle}
    (becomes : Becomes kept.storage after
      (Function.update kept.storage.held (.bundle id) bytes))
    (recorded : Pieces.Recorded (Function.update kept.storage.held (.bundle id) bytes))
    (bundles : Pieces.bundle? (Function.update kept.storage.held (.bundle id) bytes) =
      Function.update (Pieces.bundle? kept.storage.held) id found)
    (sound : ∀ {bundle}, found = some bundle → bundle.id = id ∧ bundle.record = bundle) :
    ∃ next : Kept, next.storage = after ∧ next.contents = kept.contents.setting id found sound := by
  have other : Function.update kept.storage.held (.bundle id) bytes .names =
      kept.storage.held .names := Function.update_of_ne (by simp) ..
  obtain ⟨next, same, slots, held⟩ := kept.becomes becomes other recorded
  refine ⟨next, same, Contents.ext ?_ ?_ ?_ slots⟩
  · exact (congrArg Pieces.bundle? held).trans bundles
  · exact (congrArg Pieces.references? held).trans (Pieces.references?_update (by simp))
  · exact (congrArg Pieces.blob? held).trans (Pieces.blob?_update (by simp))

theorem Kept.sets_references (kept : Kept) {bytes : Option (List UInt8)}
    {found : Option References}
    (becomes : Becomes kept.storage after
      (Function.update kept.storage.held (.references target) bytes))
    (references : Pieces.references? (Function.update kept.storage.held (.references target) bytes) =
      Function.update (Pieces.references? kept.storage.held) target found) :
    ∃ next : Kept, next.storage = after ∧
      next.contents = kept.contents.withReferences target found := by
  have other : Function.update kept.storage.held (.references target) bytes .names =
      kept.storage.held .names := Function.update_of_ne (by simp) ..
  obtain ⟨next, same, slots, held⟩ := kept.becomes becomes other
    (kept.sound.recorded.update (by simp))
  refine ⟨next, same, Contents.ext ?_ ?_ ?_ slots⟩
  · exact (congrArg Pieces.bundle? held).trans (Pieces.bundle?_update (by simp))
  · exact (congrArg Pieces.references? held).trans references
  · exact (congrArg Pieces.blob? held).trans (Pieces.blob?_update (by simp))

theorem Kept.sets_blob (kept : Kept) {bytes : Option (List UInt8)} (plain : FilePath.Plain blob)
    (becomes : Becomes kept.storage after
      (Function.update kept.storage.held (.blob ⟨blob, plain⟩) bytes)) :
    ∃ next : Kept, next.storage = after ∧ next.contents = kept.contents.withBlob blob bytes := by
  have other : Function.update kept.storage.held (.blob ⟨blob, plain⟩) bytes .names =
      kept.storage.held .names := Function.update_of_ne (by simp) ..
  obtain ⟨next, same, slots, held⟩ := kept.becomes becomes other
    (kept.sound.recorded.update (by simp))
  refine ⟨next, same, Contents.ext ?_ ?_ ?_ slots⟩
  · exact (congrArg Pieces.bundle? held).trans (Pieces.bundle?_update (by simp))
  · exact (congrArg Pieces.references? held).trans (Pieces.references?_update (by simp))
  · exact (congrArg Pieces.blob? held).trans (Pieces.blob?_set plain)

/-- What an answer comes to: the call has been done, or has failed and done nothing. -/
def Answers (kept : Kept) (call : StorageCall) (answer : Except StorageError call.Result)
    (after : FileStorage) : Prop :=
  ∃ next : Kept, next.storage = after ∧
    match answer with
    | .ok result => call.Does result kept.contents next.contents
    | .error error => next.contents = kept.contents ∧ Faults.readable call error kept.contents

theorem Kept.fails (kept : Kept) {call : StorageCall} {error : StorageError}
    (becomes : Becomes kept.storage after kept.storage.held)
    (fault : Faults.readable call error kept.contents) : Answers kept call (.error error) after := by
  obtain ⟨next, same, contents⟩ := kept.still becomes
  exact ⟨next, same, contents, fault⟩

theorem storeBundle_answers (kept : Kept) (bundle : Bundle) :
    Answers kept (.storeBundle bundle) (kept.storage.storeBundle bundle).1
      (kept.storage.storeBundle bundle).2 := by
  rw [storeBundle]
  cases encoded : Record.encode Record.bundle bundle with
  | error cause => exact kept.fails (Becomes.refl kept.sound.closed) trivial
  | ok bytes =>
      rw [bundlePath_eq]
      cases written : kept.storage.writeRecord ((Piece.bundle bundle.id).path kept.storage.root)
        bytes with
      | mk result after =>
          simp only [written]
          cases result with
          | error cause =>
              exact kept.fails (writeRecord_error kept.sound.closed written) trivial
          | ok _unit =>
              exact kept.sets_bundle (writeRecord_ok kept.sound.closed written)
                (kept.sound.recorded.insert encoded) (Pieces.bundle?_insert encoded)
                (fun same => Option.some.inj same ▸ ⟨rfl, rfl⟩)

theorem destroyBundle_answers (kept : Kept) (id : NodeId) :
    Answers kept (.destroyBundle id) (kept.storage.removeRecord (kept.storage.bundlePath id)).1
      (kept.storage.removeRecord (kept.storage.bundlePath id)).2 := by
  rw [bundlePath_eq]
  cases removed : kept.storage.removeRecord ((Piece.bundle id).path kept.storage.root) with
  | mk result after =>
      have becomes := removeRecord_becomes kept.sound.closed removed
      cases result with
      | error cause => exact kept.fails becomes trivial
      | ok _unit =>
          exact kept.sets_bundle becomes (kept.sound.recorded.erase id) Pieces.bundle?_erase
            (fun impossible => by cases impossible)

theorem storeReferences_answers (kept : Kept) (references : References) :
    Answers kept (.storeReferences references) (kept.storage.storeReferences references).1
      (kept.storage.storeReferences references).2 := by
  rw [storeReferences]
  cases encoded : Record.encode Record.references references with
  | error cause => exact kept.fails (Becomes.refl kept.sound.closed) trivial
  | ok bytes =>
      rw [referencesPath_eq]
      cases written : kept.storage.writeRecord
        ((Piece.references references.target).path kept.storage.root) bytes with
      | mk result after =>
          simp only [written]
          cases result with
          | error cause =>
              exact kept.fails (writeRecord_error kept.sound.closed written) trivial
          | ok _unit =>
              exact kept.sets_references (writeRecord_ok kept.sound.closed written)
                (Pieces.references?_insert encoded)

theorem destroyReferences_answers (kept : Kept) (target : NodeId) :
    Answers kept (.destroyReferences target)
      (kept.storage.removeRecord (kept.storage.referencesPath target)).1
      (kept.storage.removeRecord (kept.storage.referencesPath target)).2 := by
  rw [referencesPath_eq]
  cases removed : kept.storage.removeRecord ((Piece.references target).path kept.storage.root) with
  | mk result after =>
      have becomes := removeRecord_becomes kept.sound.closed removed
      cases result with
      | error cause => exact kept.fails becomes trivial
      | ok _unit => exact kept.sets_references becomes Pieces.references?_erase

theorem loadBundle_answers (kept : Kept) (id : NodeId) :
    Answers kept (.loadBundle id) (kept.storage.loadBundle id) kept.storage := by
  cases loaded : kept.storage.loadBundle id with
  | ok found => exact ⟨kept, rfl, rfl, loadBundle_ok loaded⟩
  | error cause =>
      apply kept.fails (Becomes.refl kept.sound.closed)
      rw [Faults.readable, Option.eq_none_iff_forall_ne_some]
      intro bundle held
      rw [loadBundle_held held] at loaded
      cases loaded

theorem loadReferences_answers (kept : Kept) (target : NodeId) :
    Answers kept (.loadReferences target) (kept.storage.loadReferences target) kept.storage := by
  cases loaded : kept.storage.loadReferences target with
  | ok found => exact ⟨kept, rfl, rfl, loadReferences_ok loaded⟩
  | error cause => exact kept.fails (Becomes.refl kept.sound.closed) trivial

theorem putBlob_answers (kept : Kept) (plain : FilePath.Plain blob) (bytes : List UInt8) :
    Answers kept (.putBlob blob bytes) (kept.storage.onBlobs (kept.storage.blobs.put blob bytes)).1
      (kept.storage.onBlobs (kept.storage.blobs.put blob bytes)).2 := by
  cases put : kept.storage.onBlobs (kept.storage.blobs.put blob bytes) with
  | mk result after =>
      have becomes := put_becomes kept.sound.closed kept.sound.folder plain put
      cases result with
      | error cause => exact kept.fails becomes trivial
      | ok _unit => exact kept.sets_blob plain becomes

theorem getBlob_answers (kept : Kept) (plain : FilePath.Plain blob) :
    Answers kept (.getBlob blob) (kept.storage.blobs.get blob) kept.storage := by
  cases got : kept.storage.blobs.get blob with
  | ok bytes =>
      refine ⟨kept, rfl, rfl, ?_⟩
      exact (Pieces.blob?_plain plain).trans (get_ok kept.sound.folder plain got)
  | error cause =>
      apply kept.fails (Becomes.refl kept.sound.closed)
      rw [Faults.readable, Option.eq_none_iff_forall_ne_some]
      intro bytes held
      rw [get_held kept.sound.folder plain ((Pieces.blob?_plain plain).symm.trans held)] at got
      cases got

theorem removeBlob_answers (kept : Kept) (plain : FilePath.Plain blob) :
    Answers kept (.removeBlob blob) (kept.storage.onBlobs (kept.storage.blobs.remove blob)).1
      (kept.storage.onBlobs (kept.storage.blobs.remove blob)).2 := by
  cases removed : kept.storage.onBlobs (kept.storage.blobs.remove blob) with
  | mk result after =>
      have becomes := remove_becomes kept.sound.closed kept.sound.folder plain removed
      cases result with
      | error cause => exact kept.fails becomes trivial
      | ok there =>
          obtain ⟨next, same, contents⟩ := kept.sets_blob plain becomes.1
          refine ⟨next, same, contents, becomes.2.trans ?_⟩
          exact congrArg Option.isSome (Pieces.blob?_plain plain).symm

/-- Strings have been numbered, and a place of a property may have got its blob identifier. -/
theorem Kept.renumbered (kept : Kept) (renumbers : Renumbers kept.storage after)
    (given : ∀ property place blob, slots property place = some blob →
      kept.slots property place = some blob ∨ after.blobs.paths.Names property place blob) :
    ∃ next : Kept, next.storage = after ∧ next.slots = slots ∧
      next.contents.bundles = kept.contents.bundles ∧
      next.contents.references = kept.contents.references ∧
      next.contents.blobs = kept.contents.blobs := by
  have bundle (id : NodeId) := renumbers.held (.bundle id) (by simp)
  have sound : after.Sound slots := by
    refine ⟨renumbers.closed, ?_, renumbers.numbered, ?_, ?_⟩
    · rw [renumbers.folder, renumbers.root]
      exact kept.sound.folder
    · intro id bytes there
      rw [bundle] at there
      exact kept.sound.recorded id bytes there
    · intro property place blob held
      rcases given property place blob held with before | names
      · exact (kept.sound.given _ _ _ before).later renumbers.spaces renumbers.locals
      · exact names
  refine ⟨⟨after, slots, sound⟩, rfl, rfl, Pieces.bundle?_congr bundle, ?_, ?_⟩
  · exact Pieces.references?_congr (fun target => renumbers.held (.references target) (by simp))
  · exact Pieces.blob?_congr (fun blob => renumbers.held (.blob blob) (by simp))

/-- One more blob identifier has been given. -/
def granting (slots : PropertyId → Nat → Option String) (property : PropertyId) (place : Nat)
    (blob : String) (other : PropertyId) (spot : Nat) : Option String :=
  if other = property ∧ spot = place then some blob else slots other spot

theorem granting_cases {property other : PropertyId} {place spot : Nat} {held : String}
    (given : granting slots property place blob other spot = some held) :
    (other = property ∧ spot = place ∧ held = blob) ∨ slots other spot = some held := by
  unfold granting at given
  split at given
  · rename_i here
    exact Or.inl ⟨here.1, here.2, (Option.some.inj given).symm⟩
  · exact Or.inr given

theorem createBlobId_answers (kept : Kept) (property : PropertyId) (place : Nat) :
    Answers kept (.createBlobId property place)
      (kept.storage.onBlobs (kept.storage.blobs.createId property place)).1
      (kept.storage.onBlobs (kept.storage.blobs.createId property place)).2 := by
  cases created : kept.storage.onBlobs (kept.storage.blobs.createId property place) with
  | mk result after =>
      obtain ⟨renumbers, named⟩ := createId_renumbers kept.sound.closed kept.sound.numbered created
      cases result with
      | error cause =>
          obtain ⟨next, same, slots, bundles, references, blobs⟩ := kept.renumbered renumbers
            (fun _property _place _blob given => Or.inl given)
          exact ⟨next, same, Contents.ext bundles references blobs slots, trivial⟩
      | ok blob =>
          have names := named blob rfl
          have given (other : PropertyId) (spot : Nat) (held : String)
              (granted : granting kept.slots property place blob other spot = some held) :
              kept.slots other spot = some held ∨ after.blobs.paths.Names other spot held := by
            rcases granting_cases granted with ⟨rfl, rfl, rfl⟩ | before
            · exact Or.inr names
            · exact Or.inl before
          obtain ⟨next, same, slots, bundles, references, blobs⟩ := kept.renumbered renumbers given
          refine ⟨next, same, ⟨bundles, references, blobs, fun {other spot held} before => ?_⟩, ?_⟩
          · refine (congrFun (congrFun slots other) spot).trans ?_
            unfold granting
            split
            · rename_i here
              have earlier := (kept.sound.given _ _ _ before).later renumbers.spaces renumbers.locals
              rw [here.1, here.2] at earlier
              rw [names.unique earlier]
            · exact before
          · exact (congrFun (congrFun slots property) place).trans (if_pos ⟨rfl, rfl⟩)

/-- A clean call is done, or fails and does nothing. -/
theorem serve_answers (kept : Kept) {call : StorageCall} (clean : Clean call) :
    Answers kept call (kept.storage.serve call).1 (kept.storage.serve call).2.1 := by
  cases call <;> simp only [serve, serve.quiet]
  case loadBundle id => exact loadBundle_answers kept id
  case storeBundle bundle => exact storeBundle_answers kept bundle
  case destroyBundle id => exact destroyBundle_answers kept id
  case loadReferences target => exact loadReferences_answers kept target
  case storeReferences references => exact storeReferences_answers kept references
  case destroyReferences target => exact destroyReferences_answers kept target
  case checkConsistency ids recursive repair => exact clean.elim
  case createBlobId property place => exact createBlobId_answers kept property place
  case putBlob blob bytes => exact putBlob_answers kept clean bytes
  case getBlob blob => exact getBlob_answers kept clean
  case removeBlob blob => exact removeBlob_answers kept clean

theorem writeRecord_root (storage : FileStorage) (path : FilePath) (bytes : List UInt8) :
    (storage.writeRecord path bytes).2.root = storage.root := by
  simp only [writeRecord, setTree]

theorem removeRecord_root (storage : FileStorage) (path : FilePath) :
    (storage.removeRecord path).2.root = storage.root := by
  rw [removeRecord]
  split <;> rfl

theorem storeBundle_root (storage : FileStorage) (bundle : Bundle) :
    (storage.storeBundle bundle).2.root = storage.root := by
  unfold storeBundle
  cases Record.encode Record.bundle bundle with
  | error cause => rfl
  | ok bytes => simp only [writeRecord_root]

theorem storeReferences_root (storage : FileStorage) (references : References) :
    (storage.storeReferences references).2.root = storage.root := by
  unfold storeReferences
  cases Record.encode Record.references references with
  | error cause => rfl
  | ok bytes => simp only [writeRecord_root]

theorem serve_root (storage : FileStorage) {call : StorageCall} (clean : Clean call) :
    (storage.serve call).2.1.root = storage.root := by
  cases call <;> simp only [serve, serve.quiet, onBlobs]
  case storeBundle bundle => exact storeBundle_root storage bundle
  case storeReferences references => exact storeReferences_root storage references
  case destroyBundle id => rw [removeRecord_root]
  case destroyReferences target => rw [removeRecord_root]
  case checkConsistency ids recursive repair => exact clean.elim

open Classical in
/-- Refuses what is not clean. -/
noncomputable def serveKept (call : StorageCall) (kept : Kept) :
    Except StorageError call.Result × Kept :=
  if clean : Clean call then
    ((kept.storage.serve call).1, (serve_answers kept clean).choose)
  else (.error (.injected call.name), kept)

theorem serveKept_clean {call : StorageCall} (clean : Clean call) (kept : Kept) :
    (serveKept call kept).1 = (kept.storage.serve call).1 ∧
      (serveKept call kept).2.storage = (kept.storage.serve call).2.1 := by
  rw [serveKept, dif_pos clean]
  exact ⟨rfl, (serve_answers kept clean).choose_spec.1⟩

/-- What is not clean is not there either. -/
theorem readable_of_unclean {call : StorageCall} (unclean : ¬ Clean call) (error : StorageError)
    (kept : Kept) : Faults.readable call error kept.contents := by
  cases call with
  | loadBundle id => exact (unclean trivial).elim
  | getBlob blob => exact dif_neg unclean
  | _ => exact trivial

theorem serveKept_root (call : StorageCall) (kept : Kept) :
    (serveKept call kept).2.storage.root = kept.storage.root := by
  by_cases clean : Clean call
  · rw [(serveKept_clean clean kept).2, serve_root kept.storage clean]
  · rw [serveKept, dif_neg clean]

theorem serveKept_answers (call : StorageCall) (kept : Kept) :
    match (serveKept call kept).1 with
    | .ok result => call.Does result kept.contents (serveKept call kept).2.contents
    | .error error => (serveKept call kept).2.contents = kept.contents ∧
        Faults.readable call error kept.contents := by
  by_cases clean : Clean call
  · rw [serveKept, dif_pos clean]
    exact (serve_answers kept clean).choose_spec.2
  · rw [serveKept, dif_neg clean]
    exact ⟨rfl, readable_of_unclean clean _ kept⟩

noncomputable def backend : Backend where
  State := Kept
  serve := serveKept
  contents := Kept.contents
  answered := fun {call kept _result} answered => by
    have answers := serveKept_answers call kept
    rw [answered] at answers
    exact answers
  failed := fun {call kept _error} failed => by
    have answers := serveKept_answers call kept
    rw [failed] at answers
    exact Or.inl answers.1

theorem backend_failsOnly : backend.FailsOnly Faults.readable := by
  intro call kept error failed
  have answers := serveKept_answers call kept
  change (serveKept call kept).1 = .error error at failed
  rw [failed] at answers
  exact answers.2

end

end FileStorage

end BundleStore
