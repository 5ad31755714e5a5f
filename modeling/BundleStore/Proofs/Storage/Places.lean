import BundleStore.Proofs.Storage.Walks
import BundleStore.Proofs.Text.Identifiers

set_option autoImplicit false

/-! Where the records of a node lie. Its digits spell the names of its folders, so that no two nodes
share a folder, and a record of a bundle is never one of references. The path of a record gives back
the node, whatever the folder of all bundles is. -/

namespace BundleStore

namespace NodeId

theorem segments_folder (id : NodeId) :
    FilePath.segments id.folder = id.folderNames.map String.ofList := by
  rw [folder, folderChars_eq, FilePath.segments_intercalate (by simp [folderNames])]
  exact fun _name listed => slashless_folderNames listed

theorem folder_inj {left right : NodeId} (same : left.folder = right.folder) : left = right :=
  folderChars_inj (String.ofList_injective same)

/-- The names of the folders are the digits of the node's text, two, two and twenty-eight. -/
structure Spelled (id : NodeId) (folders : List String) : Prop where
  lengths : folders.map String.length = [2, 2, 28]
  small : ∀ folder ∈ folders, ∀ digit ∈ folder.toList, digit ∈ Text.Hex.smallDigits
  text : folders.flatMap String.toList = (id.text.toList.splitOn '-').flatten
  bytes : Text.Hex.toBytes? (folders.flatMap String.toList) = some id.bytes

theorem segments_folder_spelled (id : NodeId) : id.Spelled (FilePath.segments id.folder) := by
  rw [segments_folder]
  refine ⟨?_, fun folder member digit there => ?_, ?_, ?_⟩
  · have length := id.length_digits
    simp only [folderNames, List.map_cons, List.map_nil, String.length_ofList, List.length_take,
      List.length_drop, length]
    rfl
  · obtain ⟨part, listed, rfl⟩ := List.mem_map.mp member
    rw [String.toList_ofList] at there
    have joined := id.joined_folderNames
    rw [digits] at joined
    have listed : digit ∈ Text.Hex.digits id.bytes := by
      rw [← joined]
      exact List.mem_flatMap.mpr ⟨_, member, by rwa [String.toList_ofList]⟩
    exact Text.Hex.mem_smallDigits listed
  · rw [joined_folderNames, id.text_canonical.digits]
  · rw [joined_folderNames]
    exact Text.Hex.toBytes?_digits id.bytes

end NodeId

namespace FileStorage

variable {storage : FileStorage} {folder names : FilePath} {name first second third : String}

/-- The node whose record lies at the path, read off the folders below the one of all bundles. -/
def recordId? (bundles path : FilePath) : Option NodeId :=
  if FilePath.below bundles (FilePath.parent path) then
    idOfFolders? ((FilePath.parent path).drop bundles.length)
  else none

theorem recordId?_append (undotted : "." ∉ folder ++ names ++ [name]) :
    recordId? folder (folder ++ names ++ [name]) = idOfFolders? names := by
  have parent : FilePath.parent (folder ++ names ++ [name]) = folder ++ names := by
    rw [FilePath.parent, ← FilePath.base, FilePath.base_of_undotted undotted, List.dropLast_concat]
  have below : FilePath.below folder (folder ++ names) = true :=
    List.isPrefixOf_iff_prefix.mpr (List.prefix_append ..)
  rw [recordId?, parent, if_pos below, List.drop_left]

/-- This is how a walk from the folder reads off the nodes. -/
theorem listing?_record (undotted : "." ∉ folder ++ [first, second, third]) :
    listing? folder (folder ++ [first, second, third, "n"]) =
      some (match recordId? folder (folder ++ [first, second, third, "n"]) with
        | some id => .record id
        | none => .stray [first, second, third, "n"]) := by
  have below : FilePath.below folder (folder ++ [first, second, third, "n"]) = true :=
    List.isPrefixOf_iff_prefix.mpr (List.prefix_append ..)
  have whole : folder ++ [first, second, third, "n"] = folder ++ [first, second, third] ++ ["n"] := by
    rw [List.append_assoc]
    rfl
  have read : recordId? folder (folder ++ [first, second, third, "n"]) =
      idOfFolders? [first, second, third] := by
    rw [whole]
    refine recordId?_append ?_
    rw [List.mem_append, not_or]
    exact ⟨undotted, by decide⟩
  rw [listing?, if_pos ⟨below, by simp⟩, List.drop_left, read]
  change (match idOfFolders? [first, second, third] with
    | some id => some (Listed.record id)
    | none => some (Listed.stray [first, second, third, "n"])) = _
  cases idOfFolders? [first, second, third] <;> rfl

theorem recordId?_bundlePath (storage : FileStorage) (id : NodeId) :
    recordId? storage.bundles.path (storage.bundlePath id) = some id := by
  have undotted := storage.bundlePath_undotted id
  have path : storage.bundlePath id =
      storage.bundles.path ++ id.folderNames.map String.ofList ++ ["n"] := by
    rw [bundlePath_eq, bundle_path, List.append_assoc]
  rw [path] at undotted ⊢
  rw [recordId?_append undotted]
  exact idOfFolders?_eq_some.mpr id.numeral_folderNames

/-- The folder of a node spells its digits, and no other node has it. The file of a bundle is none of
references, and the path of the record below the folder of all bundles gives back the node. -/
theorem places_invertible (storage : FileStorage) (id other : NodeId) :
    id.Spelled (FilePath.segments id.folder) ∧
      (id.folder = other.folder ↔ id = other) ∧
      id.bundleFile ≠ other.referencesFile ∧
      recordId? storage.bundles.path (storage.bundlePath id) = some id := by
  refine ⟨id.segments_folder_spelled, ⟨NodeId.folder_inj, congrArg NodeId.folder⟩, ?_,
    recordId?_bundlePath storage id⟩
  intro same
  exact absurd (Piece.file_inj (congrArg FilePath.segments same)).2 (by decide)

end FileStorage

end BundleStore
