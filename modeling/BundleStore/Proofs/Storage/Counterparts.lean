import BundleStore.Proofs.Storage.Listings

set_option autoImplicit false

/-! Storage in files and storage in memory that hold the same: the record of every bundle is the file
of its node, and every reference list has its record in a file. The same bundle or reference list
that is stored in both, or removed from both, leaves them so. -/

namespace BundleStore

/-- The record of a reference list, if there is one. -/
inductive References.Recorded : Option References → Option (List UInt8) → Prop
  | absent : Recorded .none .none
  | present {references : References} {bytes : List UInt8}
      (encoded : Record.encode Record.references references = .ok bytes) :
      Recorded (some references) (some bytes)

/-- Files and memory hold the same, and no bundle has a value in a blob. -/
structure Counterparts (files : FileStorage) (memory : MemoryStorage) : Prop where
  shelved : FileStorage.Shelved files.root files.tree
  sound : memory.Sound
  bundles : ∀ id, files.held (.bundle id) = memory.bundles.find? id
  references : ∀ target,
    References.Recorded (memory.references.find? target) (files.held (.references target))
  whole : ∀ id bundle, memory.bundle? id = some bundle → bundle.blobs = []

namespace Counterparts

variable {files after : FileStorage} {memory : MemoryStorage} {id target : NodeId}
  {bundle : Bundle} {references : References} {bytes : List UInt8}

/-! ### Reading -/

theorem loadBundle (alike : Counterparts files memory) (id : NodeId) :
    files.loadBundle id = memory.loadBundle id := by
  have read : files.readRecord (files.bundlePath id) = .ok (memory.bundles.find? id) := by
    rw [files.bundlePath_eq, alike.shelved.read (.bundle id), alike.bundles]
  rw [FileStorage.loadBundle, read]
  cases found : memory.bundles.find? id with
  | none => exact (MemoryStorage.loadBundle_absent found).symm
  | some bytes =>
      obtain ⟨bundle, _named, _recorded, encoded⟩ := alike.sound id bytes found
      rw [MemoryStorage.loadBundle_record found encoded]
      dsimp only
      rw [Record.decode_encode (Record.bundle_yields bundle) encoded]
      rfl

theorem loadReferences (alike : Counterparts files memory) (target : NodeId) :
    files.loadReferences target = .ok (memory.references.find? target) := by
  have recorded := alike.references target
  rw [FileStorage.loadReferences, files.referencesPath_eq, alike.shelved.read (.references target)]
  revert recorded
  generalize memory.references.find? target = found
  generalize files.held (.references target) = held
  intro recorded
  cases recorded with
  | absent => rfl
  | present encoded =>
      dsimp only
      rw [Record.decode_encode (Record.references_lawful.yields _) encoded]
      rfl

theorem stored (alike : Counterparts files memory) (id : NodeId) :
    files.tree.has (files.bundlePath id) = memory.bundles.contains id := by
  obtain ⟨place, name, path, site⟩ := alike.shelved.tidy.site (.bundle id)
  rw [files.bundlePath_eq, path, site.has alike.shelved.tidy.closed, ← path,
    SortedMap.contains, ← alike.bundles]
  rfl

theorem ids (alike : Counterparts files memory) : files.ids = (.ok memory.ids, []) := by
  refine alike.shelved.ids (List.pairwise_map.mpr memory.bundles.increasing) (fun id => ?_)
  rw [alike.bundles]
  exact SortedMap.mem_keys

/-! ### Writing -/

theorem withBundle (alike : Counterparts files memory) (fits : bundle.blobs = [])
    (encoded : Record.encode Record.bundle bundle = .ok bytes)
    (becomes : FileStorage.Becomes files after
      (Function.update files.held (.bundle bundle.id) (some bytes)))
    (shelved : FileStorage.Shelved after.root after.tree) :
    Counterparts after { memory with bundles := memory.bundles.insert bundle.id bytes } := by
  refine ⟨shelved, alike.sound.insert encoded, fun id => ?_, fun target => ?_,
    fun id found held => ?_⟩
  · rw [becomes.held, MemoryStorage.find?_insert_update]
    by_cases same : id = bundle.id
    · rw [same, Function.update_self, Function.update_self]
    · rw [Function.update_of_ne (by simpa using same), Function.update_of_ne same, alike.bundles]
  · rw [becomes.held, Function.update_of_ne (by simp)]
    exact alike.references target
  · rw [MemoryStorage.bundle?_insert memory encoded] at held
    by_cases same : id = bundle.id
    · rw [same, Function.update_self] at held
      cases held
      exact fits
    · rw [Function.update_of_ne same] at held
      exact alike.whole id found held

theorem withoutBundle (alike : Counterparts files memory)
    (becomes : FileStorage.Becomes files after (Function.update files.held (.bundle id) none))
    (shelved : FileStorage.Shelved after.root after.tree) :
    Counterparts after { memory with bundles := memory.bundles.erase id } := by
  refine ⟨shelved, alike.sound.erase id, fun other => ?_, fun target => ?_,
    fun other found held => ?_⟩
  · rw [becomes.held, MemoryStorage.find?_erase_update]
    by_cases same : other = id
    · rw [same, Function.update_self, Function.update_self]
    · rw [Function.update_of_ne (by simpa using same), Function.update_of_ne same, alike.bundles]
  · rw [becomes.held, Function.update_of_ne (by simp)]
    exact alike.references target
  · rw [MemoryStorage.bundle?_erase] at held
    by_cases same : other = id
    · rw [same, Function.update_self] at held
      cases held
    · rw [Function.update_of_ne same] at held
      exact alike.whole other found held

theorem withReferences (alike : Counterparts files memory) {found : Option References}
    {record : Option (List UInt8)} (recorded : References.Recorded found record)
    {lists : SortedMap NodeId References}
    (listed : lists.find? = Function.update memory.references.find? target found)
    (becomes : FileStorage.Becomes files after
      (Function.update files.held (.references target) record))
    (shelved : FileStorage.Shelved after.root after.tree) :
    Counterparts after { memory with references := lists } := by
  refine ⟨shelved, MemoryStorage.sound_of_bundles alike.sound rfl, fun id => ?_, fun other => ?_,
    alike.whole⟩
  · rw [becomes.held, Function.update_of_ne (by simp), alike.bundles]
  · rw [becomes.held, listed]
    by_cases same : other = target
    · rw [same, Function.update_self, Function.update_self]
      exact recorded
    · rw [Function.update_of_ne same, Function.update_of_ne (by simpa using same)]
      exact alike.references other

/-- Both take the bundle, or refuse it as too large for a record. -/
theorem storeBundle (alike : Counterparts files memory) (fits : bundle.blobs = []) :
    (files.storeBundle bundle).1 = (memory.storeBundle bundle).1 ∧
      Counterparts (files.storeBundle bundle).2 (memory.storeBundle bundle).2 := by
  rw [FileStorage.storeBundle, MemoryStorage.storeBundle]
  cases encoded : Record.encode Record.bundle bundle with
  | error cause => exact ⟨rfl, alike⟩
  | ok bytes =>
      obtain ⟨after, written, becomes, shelved⟩ := alike.shelved.write (.bundle bundle.id) bytes
      dsimp only
      rw [files.bundlePath_eq, written]
      exact ⟨rfl, alike.withBundle fits encoded becomes shelved⟩

theorem destroyBundle (alike : Counterparts files memory) (id : NodeId) :
    (files.removeRecord (files.bundlePath id)).1 = .ok () ∧
      Counterparts (files.removeRecord (files.bundlePath id)).2
        { memory with bundles := memory.bundles.erase id } := by
  obtain ⟨after, removed, becomes, shelved⟩ := alike.shelved.remove (.bundle id)
  rw [files.bundlePath_eq, removed]
  exact ⟨rfl, alike.withoutBundle becomes shelved⟩

/-- A reference list for which there can be a record is taken by both. -/
theorem storeReferences (alike : Counterparts files memory)
    (encoded : Record.encode Record.references references = .ok bytes) :
    (files.storeReferences references).1 = .ok () ∧
      Counterparts (files.storeReferences references).2
        { memory with references := memory.references.insert references.target references } := by
  obtain ⟨after, written, becomes, shelved⟩ :=
    alike.shelved.write (.references references.target) bytes
  rw [FileStorage.storeReferences, encoded]
  dsimp only
  rw [files.referencesPath_eq, written]
  exact ⟨rfl, alike.withReferences (.present encoded)
    (MemoryStorage.find?_insert_update memory.references ..) becomes shelved⟩

theorem destroyReferences (alike : Counterparts files memory) (target : NodeId) :
    (files.removeRecord (files.referencesPath target)).1 = .ok () ∧
      Counterparts (files.removeRecord (files.referencesPath target)).2
        { memory with references := memory.references.erase target } := by
  obtain ⟨after, removed, becomes, shelved⟩ := alike.shelved.remove (.references target)
  rw [files.referencesPath_eq, removed]
  exact ⟨rfl, alike.withReferences .absent (MemoryStorage.find?_erase_update memory.references ..)
    becomes shelved⟩

/-! ### Opening -/

/-- Files where nothing lay before are the counterpart of an empty memory. -/
theorem opened {root : Location} {registry : Interner} {tree later : FileTree}
    (closed : tree.Closed) (bare : FileStorage.Bare root tree)
    (opened : FileStorage.openRoot root registry tree = (.ok files, later)) :
    Counterparts files MemoryStorage.empty := by
  obtain ⟨placed, kept, shelved, nothing⟩ := FileStorage.openRoot_bare closed bare opened
  refine ⟨?_, MemoryStorage.empty_sound, fun id => nothing _ (by simp), fun target => ?_,
    fun id bundle held => ?_⟩
  · rw [placed, kept]
    exact shelved
  · rw [nothing _ (by simp)]
    exact .absent
  · cases held

/-- Files that are opened anew are still the counterpart. -/
theorem reopened (alike : Counterparts files memory) (registry : Interner) :
    ∃ again, FileStorage.openRoot files.root registry files.tree = (.ok again, files.tree) ∧
      Counterparts again memory := by
  obtain ⟨again, opened, root, tree⟩ := alike.shelved.reopen registry
  have held : again.held = files.held := by
    funext piece
    rw [FileStorage.held, FileStorage.held, root, tree]
  refine ⟨again, opened, ?_, alike.sound, fun id => ?_, fun target => ?_, alike.whole⟩
  · rw [root, tree]
    exact alike.shelved
  · rw [held]
    exact alike.bundles id
  · rw [held]
    exact alike.references target

end Counterparts

end BundleStore
