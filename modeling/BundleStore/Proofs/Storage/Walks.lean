import BundleStore.Proofs.Storage.Shelves
import BundleStore.Proofs.Text.Hex
import Mathlib.Data.List.Induction
import Mathlib.Data.List.Pairwise

set_option autoImplicit false

/-! What a walk lists when anything may lie in the folders. Every node with a record is listed. The walk
joins the names of the three folders and reads them as a number, so that an entry in other folders may
stand for the same node; nothing but the nodes with a record is listed, and each of them once, exactly
if there is no such entry and no folder in the place of a record. -/

namespace BundleStore

/-! ### Identifiers as numbers -/

namespace NodeId

theorem ofDigits?_eq_some {id : NodeId} {chars : List Char} :
    ofDigits? chars = some id ↔ chars.map Char.toLower = id.digits := by
  rw [digits, ← Text.Hex.toBytes?_eq_some, ofDigits?]
  constructor
  · intro given
    obtain ⟨bytes, read, sized⟩ := Option.bind_eq_some_iff.mp given
    rw [ofBytes?] at sized
    split at sized
    · cases sized
      exact read
    · cases sized
  · intro read
    rw [read]
    exact dif_pos id.sixteen

theorem joined_folderNames (id : NodeId) :
    (id.folderNames.map String.ofList).flatMap String.toList = id.digits := by
  rw [← flatten_folderNames]
  simp only [folderNames, List.map_cons, List.map_nil, List.flatMap_cons, List.flatMap_nil,
    String.toList_ofList, List.flatten_cons, List.flatten_nil]

/-- The digits of the identifier in either case. A plus sign may stand in front in the place of a
zero. -/
inductive Numeral (id : NodeId) : List Char → Prop where
  | plain {chars : List Char} (same : chars.map Char.toLower = id.digits) : Numeral id chars
  | signed {chars : List Char} (same : '0' :: chars.map Char.toLower = id.digits) :
      Numeral id ('+' :: chars)

/-- The folders of a node stand for it. -/
theorem numeral_folderNames (id : NodeId) :
    id.Numeral ((id.folderNames.map String.ofList).flatMap String.toList) := by
  have small : id.digits.map Char.toLower = id.digits :=
    (List.map_congr_left fun _digit member =>
      Text.Hex.toLower_of_mem_smallDigits (Text.Hex.mem_smallDigits member)).trans (List.map_id _)
  rw [joined_folderNames]
  exact .plain small

end NodeId

/-- A list without repetitions takes no value from two elements. -/
theorem eq_of_nodup_filterMap {α β : Type} {take : α → Option β} {list : List α}
    (distinct : (list.filterMap take).Nodup) {left right : α} (member : left ∈ list)
    (other : right ∈ list) {value : β} (first : take left = some value)
    (second : take right = some value) : left = right := by
  rw [List.Nodup, List.pairwise_filterMap] at distinct
  have symmetric : Std.Symm (fun left right => ∀ one, take left = some one →
      ∀ two, take right = some two → one ≠ two) :=
    ⟨fun _left _right separate two taken one given same => separate one given two taken same.symm⟩
  by_contra differs
  exact distinct.forall member other differs value first value second rfl

namespace FileStorage

variable {storage : FileStorage} {path folder : FilePath} {node : FileNode} {id : NodeId}

theorem idOfFolders?_eq_some {folders : List String} :
    idOfFolders? folders = some id ↔ id.Numeral (folders.flatMap String.toList) := by
  have zero (chars : List Char) :
      ('0' :: chars).map Char.toLower = '0' :: chars.map Char.toLower := by
    rw [List.map_cons, Text.Hex.toLower_of_mem_smallDigits (by decide)]
  rw [idOfFolders?]
  generalize folders.flatMap String.toList = chars
  constructor
  · intro given
    split at given
    · rename_i digits
      split at given
      · exact .signed ((zero digits).symm.trans (NodeId.ofDigits?_eq_some.mp given))
      · cases given
    · exact .plain (NodeId.ofDigits?_eq_some.mp given)
  · intro numeral
    cases numeral with
    | plain same =>
        split
        · rename_i digits
          have plus : Char.toLower '+' = '+' := by decide
          have digit : '+' ∈ id.digits := by
            rw [← same, List.map_cons, plus]
            exact List.mem_cons_self
          exact absurd (Text.Hex.mem_smallDigits digit) (by decide)
        · exact NodeId.ofDigits?_eq_some.mpr same
    | @signed digits same =>
        have length := congrArg List.length same
        rw [List.length_cons, List.length_map, id.length_digits] at length
        change (if digits.length = 31 then _ else none) = _
        rw [if_pos (by omega)]
        exact NodeId.ofDigits?_eq_some.mpr ((zero digits).trans same)

/-! ### Entries -/

/-- How a walk from the folder lists what lies at the path. -/
def listing? (folder path : FilePath) : Option Listed :=
  if FilePath.below folder path ∧ path ≠ folder then
    match path.drop folder.length with
    | [first, second, third, "n"] =>
        match idOfFolders? [first, second, third] with
        | some id => some (.record id)
        | none => some (.stray (path.drop folder.length))
    | _ => none
  else none

theorem listed_eq (storage : FileStorage) : storage.listed =
    storage.tree.nodes.entries.filterMap (fun entry => listing? storage.bundles.path entry.1) := by
  rw [listed, FileTree.under, List.filterMap_filterMap]
  congr 1
  funext entry
  obtain ⟨path, node⟩ := entry
  rw [listing?]
  dsimp only
  split
  · rw [Option.bind_some]
    split
    · rename_i same
      dsimp only at same ⊢
      rw [same]
      rfl
    · rename_i other
      split
      · rename_i same
        exact absurd same (other _ _ _)
      · rfl
  · rfl

theorem bundles_path (storage : FileStorage) :
    storage.bundles.path = FilePath.base storage.root.path ++ ["bundles"] :=
  join_single storage.root "bundles" (by decide) (by decide)

theorem bundle_path (storage : FileStorage) (id : NodeId) :
    (Piece.bundle id).path storage.root =
      storage.bundles.path ++ (id.folderNames.map String.ofList ++ ["n"]) := by
  rw [Piece.path, Piece.bundle_steps, bundles_path, List.append_assoc]
  rfl

/-- The node that a walk from the folder lists for an entry. -/
def entryId? (folder : FilePath) (entry : FilePath × FileNode) : Option NodeId :=
  (listing? folder entry.1).bind Listed.id?

theorem entryId?_eq_some : entryId? folder (path, node) = some id ↔ ∃ first second third,
    path = folder ++ [first, second, third, "n"] ∧
      id.Numeral ([first, second, third].flatMap String.toList) := by
  simp only [← idOfFolders?_eq_some]
  constructor
  · intro given
    obtain ⟨listed, there, named⟩ := Option.bind_eq_some_iff.mp given
    rw [listing?] at there
    split at there
    · rename_i under
      obtain ⟨rest, rfl⟩ := List.isPrefixOf_iff_prefix.mp under.1
      rw [List.drop_left] at there
      split at there
      · rename_i first second third
        refine ⟨first, second, third, rfl, ?_⟩
        split at there
        · rename_i other read
          cases there
          cases named
          exact read
        · cases there
          cases named
      · cases there
    · cases there
  · rintro ⟨first, second, third, rfl, read⟩
    have below : FilePath.below folder (folder ++ [first, second, third, "n"]) = true :=
      List.isPrefixOf_iff_prefix.mpr (List.prefix_append ..)
    rw [entryId?, listing?, if_pos ⟨below, by simp⟩, List.drop_left]
    simp only [read]
    rfl

theorem entryId?_bundlePath (storage : FileStorage) (id : NodeId) (node : FileNode) :
    entryId? storage.bundles.path (storage.bundlePath id, node) = some id := by
  refine entryId?_eq_some.mpr ⟨_, _, _, ?_, id.numeral_folderNames⟩
  rw [bundlePath_eq, bundle_path]
  rfl

/-- The nodes listed, in the order of the entries. -/
theorem listed_ids (storage : FileStorage) : storage.listed.filterMap Listed.id? =
    storage.tree.nodes.entries.filterMap (entryId? storage.bundles.path) := by
  rw [listed_eq, List.filterMap_filterMap]
  rfl

/-- There is a file where the record of the node is looked for. -/
def Recorded (storage : FileStorage) (id : NodeId) : Prop :=
  ∃ bytes, storage.tree.read (storage.bundlePath id) = .ok bytes

/-- Something that is named as a record four levels down is in folders whose names, joined, stand for a
node, and is not the file with the record of this node. -/
def Misplaced (storage : FileStorage) : Prop :=
  ∃ first second third node id,
    storage.tree.at? (storage.bundles.path ++ [first, second, third, "n"]) = some node ∧
      id.Numeral ([first, second, third].flatMap String.toList) ∧
      (storage.bundles.path ++ [first, second, third, "n"] ≠ storage.bundlePath id ∨ node = .folder)

theorem misplaced_iff : storage.Misplaced ↔ ∃ entry ∈ storage.tree.nodes.entries, ∃ id,
    entryId? storage.bundles.path entry = some id ∧
      (entry.1 ≠ storage.bundlePath id ∨ entry.2 = .folder) := by
  constructor
  · rintro ⟨first, second, third, node, id, found, numeral, wrong⟩
    rw [FileTree.at?_of_ne (by simp), SortedMap.find?_eq_some] at found
    exact ⟨_, found, id, entryId?_eq_some.mpr ⟨first, second, third, rfl, numeral⟩, wrong⟩
  · rintro ⟨⟨path, node⟩, member, id, given, wrong⟩
    obtain ⟨first, second, third, rfl, numeral⟩ := entryId?_eq_some.mp given
    refine ⟨first, second, third, node, id, ?_, numeral, wrong⟩
    rw [FileTree.at?_of_ne (by simp), SortedMap.find?_eq_some]
    exact member

theorem nodup_of_placed (placed : ¬ storage.Misplaced) :
    (storage.listed.filterMap Listed.id?).Nodup := by
  rw [misplaced_iff] at placed
  have at_place {id : NodeId} {entry : FilePath × FileNode}
      (member : entry ∈ storage.tree.nodes.entries)
      (given : entryId? storage.bundles.path entry = some id) :
      entry.1 = storage.bundlePath id := by
    by_contra elsewhere
    exact placed ⟨entry, member, id, given, Or.inl elsewhere⟩
  rw [listed_ids, List.Nodup, List.pairwise_filterMap]
  refine List.Pairwise.imp_of_mem ?_ storage.tree.nodes.increasing
  rintro left right leftMember rightMember before first leftGiven second rightGiven rfl
  exact SortedMap.ne_of_lt before
    ((at_place leftMember leftGiven).trans (at_place rightMember rightGiven).symm)

theorem recorded_iff_held : storage.Recorded id ↔ (storage.held (.bundle id)).isSome = true := by
  rw [Recorded, held, bundlePath_eq, FileTree.bytes?]
  cases storage.tree.read ((Piece.bundle id).path storage.root) <;> simp [Except.toOption]

section

variable (closed : storage.tree.Closed)
  (found : storage.tree.find storage.bundles.path = .ok .folder)

include closed found

theorem recorded_iff : storage.Recorded id ↔
    ∃ bytes, (storage.bundlePath id, FileNode.file bytes) ∈ storage.tree.nodes.entries := by
  have undotted : "." ∉ storage.bundles.path := FilePath.Plain.undotted (by decide) storage.root.path
  have above := ((FileTree.find_ok closed undotted).mp found).1
  rw [bundles_path, FileTree.speakable_append, Bool.and_eq_true] at above
  have path : storage.bundlePath id = FilePath.base storage.root.path ++ (id.shelf ++ ["n"]) := by
    rw [bundlePath_eq, Piece.path, Piece.bundle_steps]
  have spoken : FileTree.speakable (storage.bundlePath id) = true := by
    rw [path, FileTree.speakable_append, FileTree.speakable_append, above.1, speakable_shelf]
    decide
  have plain := storage.bundlePath_undotted id
  have placed : storage.bundlePath id ≠ [] := by
    rw [path]
    simp
  simp only [Recorded, FileTree.read_ok closed plain, spoken, FileTree.at?_of_ne placed,
    SortedMap.find?_eq_some, true_and]

theorem listed_of_recorded (recorded : storage.Recorded id) :
    id ∈ storage.listed.filterMap Listed.id? := by
  obtain ⟨bytes, member⟩ := (recorded_iff closed found).mp recorded
  rw [listed_ids]
  exact List.mem_filterMap.mpr ⟨_, member, entryId?_bundlePath storage id _⟩

/-- Where nothing is misplaced, an entry that is listed is the record. -/
theorem recorded_of_listed (placed : ¬ storage.Misplaced)
    (listed : id ∈ storage.listed.filterMap Listed.id?) : storage.Recorded id := by
  rw [listed_ids] at listed
  obtain ⟨⟨path, node⟩, member, given⟩ := List.mem_filterMap.mp listed
  rw [misplaced_iff] at placed
  have right : ¬ (path ≠ storage.bundlePath id ∨ node = .folder) :=
    fun wrong => placed ⟨_, member, id, given, wrong⟩
  rw [not_or, not_not] at right
  obtain ⟨here, file⟩ := right
  rw [recorded_iff closed found, ← here]
  cases node with
  | file bytes => exact ⟨bytes, member⟩
  | folder => exact absurd rfl file

/-- A node with a misplaced entry is listed without a record, or twice. -/
theorem not_exact_of_misplaced (misplaced : storage.Misplaced)
    (distinct : (storage.listed.filterMap Listed.id?).Nodup) :
    ∃ id ∈ storage.listed.filterMap Listed.id?, ¬ storage.Recorded id := by
  obtain ⟨⟨path, node⟩, member, id, given, wrong⟩ := misplaced_iff.mp misplaced
  rw [listed_ids] at distinct ⊢
  refine ⟨id, List.mem_filterMap.mpr ⟨_, member, given⟩, fun recorded => ?_⟩
  obtain ⟨bytes, other⟩ := (recorded_iff closed found).mp recorded
  obtain ⟨here, file⟩ := Prod.mk.inj
    (eq_of_nodup_filterMap distinct member other given (entryId?_bundlePath storage id _))
  rcases wrong with elsewhere | folder
  · exact elsewhere here
  · rw [file] at folder
    cases folder

end

/-- The walk lists every node with a record, in order. It lists nothing else, and nothing twice,
exactly where nothing is misplaced. -/
theorem ids_exact_iff (closed : storage.tree.Closed)
    (found : storage.tree.find storage.bundles.path = .ok .folder) :
    ∃ ids, storage.ids.1 = .ok ids ∧
      ids.Pairwise (fun left right => (compare left right).isLE = true) ∧
      (∀ id, storage.Recorded id → id ∈ ids) ∧
      ((ids.Nodup ∧ ∀ id, id ∈ ids ↔ storage.Recorded id) ↔ ¬ storage.Misplaced) := by
  have walked : storage.ids.1 = .ok ((storage.listed.filterMap Listed.id?).mergeSort
      (fun left right => compare left right != .gt)) := by
    rw [FileStorage.ids, found]
  have same := List.mergeSort_perm (storage.listed.filterMap Listed.id?)
    (fun left right => compare left right != .gt)
  refine ⟨_, walked, SortedMap.sorted_mergeSort _, fun id recorded => ?_, ?_⟩
  · exact same.mem_iff.mpr (listed_of_recorded closed found recorded)
  · simp only [same.nodup_iff, same.mem_iff]
    constructor
    · rintro ⟨distinct, exact⟩ misplaced
      obtain ⟨id, listed, unrecorded⟩ := not_exact_of_misplaced closed found misplaced distinct
      exact unrecorded ((exact id).mp listed)
    · intro placed
      exact ⟨nodup_of_placed placed, fun id =>
        ⟨recorded_of_listed closed found placed, listed_of_recorded closed found⟩⟩

end FileStorage

/-! ### Entries of empty files -/

namespace Attic

/-- Empty files at these paths, below the top. -/
def storage (paths : List FilePath) : FileStorage :=
  ⟨⟨"", []⟩, ⟨["blobs"], StoragePaths.volatile,
    paths.foldl (fun tree path => (tree.write path []).2) FileTree.empty⟩⟩

theorem closed {paths : List FilePath} (undotted : ∀ path ∈ paths, "." ∉ path) :
    (storage paths).tree.Closed := by
  induction paths using List.reverseRecOn with
  | nil => exact FileTree.empty_closed
  | append_singleton paths last ih =>
      have before := ih (fun path member => undotted path (List.mem_append_left _ member))
      have plain := undotted last (by simp)
      change ((paths ++ [last]).foldl _ FileTree.empty).Closed
      rw [List.foldl_append]
      exact before.write plain []

def first : NodeId := ⟨List.replicate 15 0 ++ [1], by decide⟩

/-- Of the files that are named as a record, two are in folders that stand for no node. -/
def tidy : List FilePath :=
  [["bundles", "00", "00", "0000000000000000000000000001", "n"],
    ["bundles", "00", "00", "000000000000000000000000000g", "n"],
    ["bundles", "n", "n", "n", "n"], ["bundles", "00", "n"]]

/-- The digits are those of the node, but in other folders. -/
def untidy : List FilePath := [["bundles", "000", "0", "0000000000000000000000000001", "n"]]

theorem tidy_exact : (storage tidy).tree.Closed ∧
    (storage tidy).tree.find (storage tidy).bundles.path = .ok .folder ∧
    (storage tidy).ids.1 = .ok [first] ∧ ∀ id, id ∈ [first] ↔ (storage tidy).Recorded id := by
  have whole : (storage tidy).tree.Closed := closed (by decide)
  have found : (storage tidy).tree.find (storage tidy).bundles.path = .ok .folder := by
    decide +kernel
  have placed : ¬ (storage tidy).Misplaced := by
    rw [FileStorage.misplaced_iff]
    decide +kernel
  have listed : (storage tidy).ids.1 = .ok [first] := by decide +kernel
  obtain ⟨ids, walked, _sorted, _recorded, exact⟩ := FileStorage.ids_exact_iff whole found
  rw [listed] at walked
  cases walked
  exact ⟨whole, found, listed, (exact.mpr placed).2⟩

theorem untidy_inexact :
    ¬ ∀ storage : FileStorage, storage.tree.Closed →
      storage.tree.find storage.bundles.path = .ok .folder →
      ∃ ids, storage.ids.1 = .ok ids ∧ ids.Nodup ∧ ∀ id, id ∈ ids ↔ storage.Recorded id := by
  intro claimed
  obtain ⟨ids, walked, _distinct, exact⟩ := claimed (storage untidy) (closed (by decide))
    (by decide +kernel)
  have listed : (storage untidy).ids.1 = .ok [first] := by decide +kernel
  have missing : (storage untidy).tree.read ((storage untidy).bundlePath first) =
      .error .notFound := by
    decide +kernel
  rw [listed] at walked
  cases walked
  obtain ⟨bytes, read⟩ := (exact first).mp List.mem_cons_self
  rw [missing] at read
  cases read

end Attic

end BundleStore
