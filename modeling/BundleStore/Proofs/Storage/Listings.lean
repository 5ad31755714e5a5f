import BundleStore.Proofs.Storage.Walks
import BundleStore.Proofs.Totals

set_option autoImplicit false

/-! What a walk through the folders finds: of every stored bundle its node, in order, and nothing
else. Together the files are no smaller than the records of the bundles. -/

namespace BundleStore

namespace FileStorage

variable {storage : FileStorage} {path : FilePath} {node : FileNode} {id : NodeId}

/-- A file with the name of a bundle lies in the folder of a node. -/
theorem Filed.of_bundle {front : FilePath} (filed : Filed (front ++ ["n"])) :
    ∃ id, front = NodeId.shelf id := by
  generalize whole : front ++ ["n"] = steps at filed
  cases filed with
  | names => exact absurd (congrArg List.getLast? whole) (by simp [StoragePaths.namesFile])
  | record record =>
      cases record with
      | bundle id =>
          rw [Piece.bundle_steps] at whole
          exact ⟨id, (List.append_inj' whole rfl).1⟩
      | references target =>
          rw [Piece.references_steps] at whole
          exact absurd (List.append_inj' whole rfl).2 (by decide)

/-- Nothing is listed but the bundles that are there. -/
theorem Shelved.listing? (shelved : Shelved storage.root storage.tree)
    (member : (path, node) ∈ storage.tree.nodes.entries) {listed : Listed}
    (given : listing? storage.bundles.path path = some listed) :
    ∃ id, listed = .record id ∧ path = storage.bundlePath id ∧ node ≠ .folder := by
  rw [FileStorage.listing?] at given
  split at given
  · rename_i under
    obtain ⟨rest, rfl⟩ := List.isPrefixOf_iff_prefix.mp under.1
    rw [List.drop_left] at given
    split at given
    · rename_i first second third
      have found : storage.tree.at? (FilePath.base storage.root.path ++
          (["bundles", first, second, third] ++ ["n"])) = some node := by
        rw [FileTree.at?_of_ne (by simp), SortedMap.find?_eq_some]
        rw [bundles_path, List.append_assoc] at member
        exact member
      cases node with
      | folder => exact absurd (shelved.tidy.folders _ found).short (by simp)
      | file bytes =>
          obtain ⟨id, front⟩ := (shelved.tidy.files _ bytes found).of_bundle
          have folders : [first, second, third] = id.folderNames.map String.ofList :=
            (List.cons.inj front).2
          rw [folders, idOfFolders?_eq_some.mpr id.numeral_folderNames] at given
          cases given
          refine ⟨id, rfl, ?_, by simp⟩
          rw [bundlePath_eq, bundle_path, ← folders]
          rfl
    · cases given
  · cases given

theorem Shelved.placed (shelved : Shelved storage.root storage.tree) : ¬ storage.Misplaced := by
  rw [misplaced_iff]
  rintro ⟨⟨path, node⟩, member, id, given, wrong⟩
  obtain ⟨listed, there, named⟩ := Option.bind_eq_some_iff.mp given
  obtain ⟨other, rfl, here, file⟩ := shelved.listing? member there
  cases named
  exact wrong.elim (fun elsewhere => elsewhere here) file

/-- The walk finds the nodes that have a bundle, and warns of nothing. -/
theorem Shelved.ids (shelved : Shelved storage.root storage.tree) {ids : List NodeId}
    (increasing : ids.Pairwise (fun left right => compare left right = .lt))
    (stored : ∀ id, id ∈ ids ↔ (storage.held (.bundle id)).isSome = true) :
    storage.ids = (.ok ids, []) := by
  have closed := shelved.tidy.closed
  have placed := shelved.placed
  have found : storage.tree.find storage.bundles.path = .ok .folder := by
    have undotted : "." ∉ storage.bundles.path := FilePath.Plain.undotted (by decide) storage.root.path
    rw [FileTree.find_ok closed undotted, bundles_path, FileTree.speakable_append,
      shelved.tidy.spoken]
    exact ⟨by decide, shelved.bundles⟩
  have strays : storage.listed.filterMap Listed.path? = [] := by
    rw [List.filterMap_eq_nil_iff, listed_eq]
    intro listed member
    obtain ⟨entry, there, given⟩ := List.mem_filterMap.mp member
    obtain ⟨id, rfl, _here, _file⟩ := shelved.listing? there given
    rfl
  have members (id : NodeId) : id ∈ storage.listed.filterMap Listed.id? ↔ id ∈ ids := by
    rw [stored, ← recorded_iff_held]
    exact ⟨recorded_of_listed closed found placed, listed_of_recorded closed found⟩
  have same : (storage.listed.filterMap Listed.id?).Perm ids :=
    (List.perm_ext_iff_of_nodup (nodup_of_placed placed)
      (increasing.imp SortedMap.ne_of_lt)).mpr members
  rw [FileStorage.ids, found]
  dsimp only
  rw [SortedMap.mergeSort_of_increasing increasing same, strays]
  rfl

/-- The files are no smaller than the records of bundles among them. -/
theorem Shelved.sum_le (shelved : Shelved storage.root storage.tree)
    {bundles : SortedMap NodeId (List UInt8)}
    (stored : ∀ id, storage.held (.bundle id) = bundles.find? id) :
    (bundles.values.map List.length).sum ≤ (storage.tree.nodes.values.map FileNode.size).sum := by
  have files : bundles.values.map List.length =
      (bundles.entries.map (fun entry =>
        ((Piece.bundle entry.1).path storage.root, FileNode.file entry.2))).map
          (fun entry => entry.2.size) := by
    rw [SortedMap.values, List.map_map, List.map_map]
    rfl
  have entries : storage.tree.nodes.values.map FileNode.size =
      storage.tree.nodes.entries.map (fun entry => entry.2.size) := by
    rw [SortedMap.values, List.map_map]
    rfl
  rw [files, entries]
  apply sum_map_le_of_subset
  · rw [List.Nodup, List.pairwise_map]
    refine bundles.increasing.imp (fun {left right} before same => ?_)
    have node : left.1 = right.1 := Piece.bundle.inj (Piece.path_injective (Prod.mk.inj same).1)
    exact SortedMap.ne_of_lt before node
  · intro entry member
    obtain ⟨⟨id, bytes⟩, listed, rfl⟩ := List.mem_map.mp member
    have there : storage.held (.bundle id) = some bytes :=
      (stored id).trans (SortedMap.find?_eq_some.mpr listed)
    have found := ((FileTree.bytes?_eq_some shelved.tidy.closed
      ((Piece.bundle id).undotted storage.root)).mp there).2
    rw [FileTree.at?_of_ne (by simp [Piece.path, Piece.steps]), SortedMap.find?_eq_some] at found
    exact found

end FileStorage

end BundleStore
