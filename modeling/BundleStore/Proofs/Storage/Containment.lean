import BundleStore.Proofs.Files.Sites
import BundleStore.Proofs.Storage.Blobs

set_option autoImplicit false

/-! Which places blobs in files have to do with. A request comes to some uses of the tree, one after
the other, and each use touches some places. All of them are the folder of the blobs or lie below
it, whatever the identifier, unless a blob is put under one that is made of dots only: the file is
then first written next to the folder, not in it. -/

namespace BundleStore

/-! ### Uses of a tree -/

/-- What is asked of the files and folders at some paths. -/
inductive FileUse where
  | makeFolders (folder : FilePath)
  | replace (folder path : FilePath) (bytes : List UInt8)
  | read (path : FilePath)
  | remove (path : FilePath)
deriving DecidableEq

namespace FileTree

variable {tree after : FileTree} {root place folder path : FilePath} {node : FileNode}

/-- The bytes that have been read, if the use succeeds, and the tree that it leaves. -/
def serve (tree : FileTree) : FileUse → Except IoError (List UInt8) × FileTree
  | .makeFolders folder =>
      ((tree.makeFolders folder).1.map (fun _ => []), (tree.makeFolders folder).2)
  | .replace folder path bytes =>
      match tree.replace folder path bytes with
      | .ok after => (.ok [], after)
      | .error cause => (.error cause, tree)
  | .read path => (tree.read path, tree)
  | .remove path =>
      match tree.remove path with
      | .ok after => (.ok [], after)
      | .error cause => (.error cause, tree)

/-- One use after the other, until one fails. -/
def perform (tree : FileTree) : List FileUse → Except IoError (List UInt8) × FileTree
  | [] => (.ok [], tree)
  | use :: rest =>
      match tree.serve use with
      | (.error cause, after) => (.error cause, after)
      | (.ok bytes, after) => ((after.perform rest).1.map (bytes ++ ·), (after.perform rest).2)

/-- The places that are opened, made, renamed or deleted. The folders that are missing are looked
for upwards, to the first that is there. A file is first written under any other name, in the folder
that is given for it. -/
inductive Touches (tree : FileTree) : FileUse → FilePath → Prop where
  | asked (folder : FilePath) : Touches tree (.makeFolders folder) folder
  | missing {folder above : FilePath} {name : String} (absent : tree.at? (above ++ [name]) = none)
      (way : above ++ [name] <+: FilePath.base folder) :
      Touches tree (.makeFolders folder) (above ++ [name])
  | above {folder above : FilePath} {name : String} (absent : tree.at? (above ++ [name]) = none)
      (way : above ++ [name] <+: FilePath.base folder) : Touches tree (.makeFolders folder) above
  | inside (folder path : FilePath) (bytes : List UInt8) :
      Touches tree (.replace folder path bytes) folder
  | aside (folder path : FilePath) (bytes : List UInt8) (name : String) :
      Touches tree (.replace folder path bytes) (folder ++ [name])
  | replaced (folder path : FilePath) (bytes : List UInt8) :
      Touches tree (.replace folder path bytes) path
  | read (path : FilePath) : Touches tree (.read path) path
  | removed (path : FilePath) : Touches tree (.remove path) path

/-- The place is the root or lies below it. A dot leads nowhere else. -/
def Within (root place : FilePath) : Prop := FilePath.base root <+: FilePath.base place

instance (root place : FilePath) : Decidable (Within root place) :=
  inferInstanceAs (Decidable (_ <+: _))

/-- As long as the uses go on, all they touch lies within the root. -/
def Stays (root : FilePath) : List FileUse → FileTree → Prop
  | [], _ => True
  | use :: rest, tree =>
      (∀ place, tree.Touches use place → Within root place) ∧
        ∀ bytes after, tree.serve use = (.ok bytes, after) → Stays root rest after

theorem replace_eq {bytes : List UInt8} (replaced : tree.replace folder path bytes = .ok after) :
    after = ⟨tree.nodes.insert (FilePath.base path) (.file bytes)⟩ := by
  rw [replace] at replaced
  split at replaced
  · cases replaced
  · cases replaced
  · split at replaced
    · cases replaced
    · cases replaced
      rfl
    · split at replaced
      · cases replaced
      · cases replaced
        rfl
    · cases replaced

theorem remove_eq (removed : tree.remove path = .ok after) : after = ⟨tree.nodes.erase path⟩ := by
  rw [remove] at removed
  split at removed
  · cases removed
  · cases removed
  · cases removed
    rfl

theorem makeBelow_kept {here rest other : FilePath} (found : tree.at? other = some node) :
    (tree.makeBelow here rest).2.at? other = some node := by
  induction rest generalizing tree here with
  | nil => exact found
  | cons name rest ih =>
      rw [makeBelow]
      split
      · exact ih found
      · split
        · exact found
        · split
          · exact ih found
          · exact found
          · rename_i absent
            apply ih
            rw [at?_insert (by simp), if_neg]
            · exact found
            · rintro rfl
              rw [at?_below, absent] at found
              cases found

theorem makeFolders_kept (found : tree.at? place = some node) :
    (tree.makeFolders path).2.at? place = some node := by
  rw [makeFolders]
  split
  · exact found
  · exact makeBelow_kept found

/-- Where the folder is there, nothing is made. -/
theorem makeFolders_unchanged (closed : tree.Closed)
    (there : tree.at? (FilePath.base path) = some .folder) :
    (tree.makeFolders path).2.at? place = tree.at? place := by
  cases found : tree.at? place with
  | some node => exact makeFolders_kept found
  | none =>
      refine makeFolders_within found (fun ⟨rest, whole⟩ => ?_)
      rw [FilePath.base, ← whole] at there
      by_cases last : rest = []
      · rw [last, List.append_nil, found] at there
        cases there
      · rw [closed.above last there] at found
        cases found

theorem Closed.dropLast (closed : tree.Closed) (there : tree.at? path = some .folder) :
    tree.at? path.dropLast = some .folder := by
  rcases List.eq_nil_or_concat path with rfl | ⟨folder, name, rfl⟩
  · rfl
  · rw [List.concat_eq_append] at there ⊢
    rw [List.dropLast_concat]
    exact closed folder name .folder there

/-- What a use does not touch is as it was. -/
theorem serve_untouched (use : FileUse)
    (apart : ∀ touched, tree.Touches use touched → FilePath.base touched ≠ FilePath.base place) :
    (tree.serve use).2.at? place = tree.at? place := by
  cases use with
  | makeFolders folder =>
      change (tree.makeFolders folder).2.at? place = tree.at? place
      cases found : tree.at? place with
      | some node => exact makeFolders_kept found
      | none =>
          refine makeFolders_within found (fun way => ?_)
          rcases List.eq_nil_or_concat place with rfl | ⟨above, name, rfl⟩
          · cases found
          · rw [List.concat_eq_append] at found way apart
            exact apart _ (.missing found way) rfl
  | replace folder path bytes =>
      have differs := apart path (.replaced folder path bytes)
      have aside : place ≠ FilePath.base path := by
        rintro rfl
        exact differs (FilePath.base_base path).symm
      rw [serve]
      cases replaced : tree.replace folder path bytes with
      | error cause => rfl
      | ok after => rw [replace_eq replaced, at?_insert_of_ne aside]
  | read path => rfl
  | remove path =>
      have differs := apart path (.removed path)
      have aside : place ≠ path := fun same => differs (congrArg FilePath.base same.symm)
      rw [serve]
      cases removed : tree.remove path with
      | error cause => rfl
      | ok after => rw [remove_eq removed, at?_erase_of_ne aside]

theorem perform_untouched {uses : List FileUse} (stays : Stays root uses tree)
    (outside : ¬ Within root place) : (tree.perform uses).2.at? place = tree.at? place := by
  induction uses generalizing tree with
  | nil => rfl
  | cons use rest ih =>
      obtain ⟨within, later⟩ := stays
      have first : (tree.serve use).2.at? place = tree.at? place := by
        refine serve_untouched use (fun touched touches same => outside ?_)
        rw [Within, ← same]
        exact within touched touches
      rw [perform]
      cases served : tree.serve use with
      | mk result after =>
          rw [served] at first
          cases result with
          | error cause => exact first
          | ok bytes => exact (ih (later bytes after served)).trans first

/-- Nothing is missing on the way to a folder that is there, so none is looked for above it. -/
theorem makeFolders_touches (closed : tree.Closed)
    (there : tree.at? (FilePath.base root) = some .folder) (inside : Within root folder)
    (touches : tree.Touches (.makeFolders folder) place) : Within root place := by
  have lower {above : FilePath} {name : String} (absent : tree.at? (above ++ [name]) = none)
      (way : above ++ [name] <+: FilePath.base folder) : FilePath.base root <+: above := by
    rcases List.prefix_or_prefix_of_prefix inside way with below | ⟨rest, whole⟩
    · rcases List.prefix_concat_iff.mp below with same | proper
      · rw [← same, there] at absent
        cases absent
      · exact proper
    · by_cases last : rest = []
      · rw [last, List.append_nil] at whole
        rw [whole, there] at absent
        cases absent
      · rw [← whole] at there
        rw [closed.above last there] at absent
        cases absent
  have spelled {path : FilePath} (way : path <+: FilePath.base folder) : FilePath.base path = path :=
    FilePath.base_of_undotted (fun dotted => FilePath.base_undotted folder (way.subset dotted))
  cases touches with
  | asked => exact inside
  | missing absent way =>
      rw [Within, spelled way]
      exact (lower absent way).trans (List.prefix_append ..)
  | above absent way =>
      rw [Within, spelled ((List.prefix_append ..).trans way)]
      exact lower absent way

/-- A file comes to lie in its folder, and nothing else is new. -/
theorem replace_builds {bytes : List UInt8} (closed : tree.Closed) (undotted : "." ∉ path)
    (replaced : tree.replace (FilePath.parent path) path bytes = .ok after) :
    Builds (· = path) (fun _ => False) tree after := by
  have change := replace_eq replaced
  rw [FilePath.base_of_undotted undotted] at change
  rw [replace, FilePath.parent, ← FilePath.base, FilePath.base_of_undotted undotted] at replaced
  rcases List.eq_nil_or_concat path with rfl | ⟨front, name, rfl⟩
  · cases replaced
  · rw [List.concat_eq_append] at replaced undotted change ⊢
    rw [List.dropLast_concat] at replaced
    have above : "." ∉ front := fun member => undotted (List.mem_append_left _ member)
    rw [change]
    split at replaced
    · cases replaced
    · cases replaced
    · rename_i found
      refine closed.builds_file ((find_ok closed above).mp found).2 ?_
      split at replaced
      · cases replaced
      · rename_i held there
        rw [((find_ok closed undotted).mp there).2]
        simp
      · rename_i missing
        rw [(find_notFound undotted found missing).2]
        simp
      · cases replaced

/-- No folder is lost when a file is written. -/
theorem write_keeps (closed : tree.Closed) (settled : FilePath.Settled path) (bytes : List UInt8) :
    (tree.write path bytes).2.Closed ∧
      ∀ folder, tree.at? folder = some .folder →
        (tree.write path bytes).2.at? folder = some .folder := by
  have grown := makeFolders_grown closed (FilePath.parent path)
  rw [write]
  split
  · rename_i made
    rw [made] at grown
    exact ⟨grown.closed, grown.folders⟩
  · rename_i middle made
    rw [made] at grown
    split
    · exact ⟨grown.closed, grown.folders⟩
    · rename_i after replaced
      have builds := replace_builds grown.closed (replace_undotted settled replaced) replaced
      exact ⟨builds.closed, fun folder there => builds.kept folder (grown.folders folder there)⟩

end FileTree

/-! ### Requests -/

/-- What is asked of the blobs under an identifier. -/
inductive BlobRequest where
  | put (bytes : List UInt8)
  | get
  | remove

namespace BlobRequest

abbrev Result : BlobRequest → Type
  | .put _ => Unit
  | .get => List UInt8
  | .remove => Bool

/-- What the request asks of the tree once the place of the blob is known. -/
def uses (path : FilePath) : BlobRequest → List FileUse
  | .put bytes =>
      [.makeFolders (FilePath.parent path), .replace (FilePath.parent path) path bytes]
  | .get => [.read path]
  | .remove => [.remove path]

/-- What is told of how that went. -/
def told (blob : String) :
    (request : BlobRequest) → Except IoError (List UInt8) → Except StorageError request.Result
  | .put _, .ok _ => .ok ()
  | .put _, .error cause => .error (.io cause)
  | .get, .ok bytes => .ok bytes
  | .get, .error .notFound => .error (.blobNotFound blob)
  | .get, .error cause => .error (.io cause)
  | .remove, .ok _ => .ok true
  | .remove, .error .notFound => .ok false
  | .remove, .error cause => .error (.io cause)

end BlobRequest

namespace BlobFolder

variable {store : BlobFolder} {blob : String} {path place : FilePath}

def answer (store : BlobFolder) (blob : String) :
    (request : BlobRequest) → Except StorageError request.Result × BlobFolder
  | .put bytes => store.put blob bytes
  | .get => (store.get blob, store)
  | .remove => store.remove blob

/-- The uses of the tree that the request comes to, if its identifier is not refused. -/
def uses (store : BlobFolder) (blob : String) (request : BlobRequest) :
    Except StorageError (List FileUse) :=
  (store.locate blob).map request.uses

def carryOut (store : BlobFolder) (blob : String) (request : BlobRequest) :
    Except StorageError (List FileUse) → Except StorageError request.Result × BlobFolder
  | .error cause => (.error cause, store)
  | .ok uses =>
      (request.told blob (store.tree.perform uses).1,
        { store with tree := (store.tree.perform uses).2 })

/-- Nothing but these uses goes on when a request is answered. -/
theorem answer_eq (store : BlobFolder) (blob : String) (request : BlobRequest) :
    store.answer blob request = store.carryOut blob request (store.uses blob request) := by
  rw [uses]
  cases request with
  | put bytes =>
      rw [answer, put]
      cases located : store.locate blob with
      | error cause => rfl
      | ok path =>
          change _ = store.carryOut blob (.put bytes)
            (.ok [.makeFolders (FilePath.parent path), .replace (FilePath.parent path) path bytes])
          simp only [carryOut, FileTree.perform, FileTree.serve, FileTree.write]
          cases store.tree.makeFolders (FilePath.parent path) with
          | mk result middle =>
              cases result with
              | error cause => rfl
              | ok _unit =>
                  simp only [Except.map]
                  cases middle.replace (FilePath.parent path) path bytes with
                  | error cause => rfl
                  | ok after => rfl
  | get =>
      rw [answer, get]
      cases located : store.locate blob with
      | error cause => rfl
      | ok path =>
          change _ = store.carryOut blob .get (.ok [.read path])
          simp only [carryOut, FileTree.perform, FileTree.serve]
          cases store.tree.read path with
          | error cause => cases cause <;> rfl
          | ok bytes => simp [BlobRequest.told, Except.map]
  | remove =>
      rw [answer, remove]
      cases located : store.locate blob with
      | error cause => rfl
      | ok path =>
          change _ = store.carryOut blob .remove (.ok [.remove path])
          simp only [carryOut, FileTree.perform, FileTree.serve]
          cases store.tree.remove path with
          | error cause => cases cause <;> rfl
          | ok after => rfl

/-- The request is refused for its identifier, or keeps to the folder of the blobs. -/
def Confined (store : BlobFolder) (blob : String) (request : BlobRequest) : Prop :=
  store.uses blob request = .error (.invalidBlobId blob) ∨
    ∃ uses, store.uses blob request = .ok uses ∧ FileTree.Stays store.folder uses store.tree

/-- The folder of the blobs is there, in a tree where everything lies in a folder. -/
structure Rooted (store : BlobFolder) : Prop where
  closed : store.tree.Closed
  there : store.tree.at? (FilePath.base store.folder) = some .folder

theorem uses_error {cause : StorageError} {request : BlobRequest}
    (refused : store.uses blob request = .error cause) : cause = .invalidBlobId blob := by
  rw [uses, locate] at refused
  split at refused
  · cases refused
  · cases refused
    rfl

/-- Dots within an identifier go, but its last segment stays as it is. -/
theorem locate_concat (located : store.locate blob = .ok path) :
    ∃ front last, FilePath.segments blob = front ++ [last] ∧
      path = FilePath.base store.folder ++ FilePath.base front ++ [last] := by
  obtain ⟨onward, rfl⟩ := locate_onward located
  rcases List.eq_nil_or_concat (FilePath.segments blob) with none | ⟨front, last, split⟩
  · exact absurd none (FilePath.segments_ne_nil blob)
  · rw [List.concat_eq_append] at split
    exact ⟨front, last, split, FilePath.resolve_concat split onward⟩

theorem locate_settled (located : store.locate blob = .ok path) : FilePath.Settled path := by
  obtain ⟨front, last, _split, rfl⟩ := locate_concat located
  rw [FilePath.Settled, List.dropLast_concat, ← FilePath.base_append]
  exact FilePath.base_undotted _

theorem locate_within (located : store.locate blob = .ok path) :
    FileTree.Within store.folder path := by
  obtain ⟨onward, rfl⟩ := locate_onward located
  rw [FileTree.Within, FilePath.base_resolve onward]
  exact List.prefix_append ..

/-- The folder that a file is put into is that of the blobs or below it, but for dots alone. -/
theorem parent_within (located : store.locate blob = .ok path) :
    FileTree.Within store.folder (FilePath.parent path) ↔
      ¬ ((∀ segment ∈ FilePath.segments blob, segment = ".") ∧ FilePath.base store.folder ≠ []) := by
  obtain ⟨onward, rfl⟩ := locate_onward located
  have parent : FilePath.parent (FilePath.resolve store.folder blob) =
      (FilePath.base store.folder ++ FilePath.base (FilePath.segments blob)).dropLast :=
    congrArg List.dropLast (FilePath.base_resolve onward)
  rw [FileTree.Within, FilePath.base_parent, parent, ← FilePath.base_eq_nil]
  by_cases dots : FilePath.base (FilePath.segments blob) = []
  · rw [dots, List.append_nil]
    refine ⟨fun within above => above.2 ?_, fun top => ?_⟩
    · have shorter := within.length_le
      rw [List.length_dropLast] at shorter
      rw [← List.length_eq_zero_iff]
      omega
    · rw [not_not.mp (fun some => top ⟨rfl, some⟩)]
      exact List.nil_prefix
  · rw [List.dropLast_append_of_ne_nil dots]
    exact iff_of_true (List.prefix_append ..) (fun above => dots above.1)

/-- What a request keeps to is told by the folder that a file is put into. -/
theorem confined_of_locate (rooted : store.Rooted) (located : store.locate blob = .ok path)
    (request : BlobRequest) :
    store.Confined blob request ↔
      ((∃ bytes, request = .put bytes) → FileTree.Within store.folder (FilePath.parent path)) := by
  have comes : store.uses blob request = .ok (request.uses path) := by
    rw [uses, located]
    rfl
  have confined : store.Confined blob request ↔
      FileTree.Stays store.folder (request.uses path) store.tree := by
    rw [Confined, comes]
    refine ⟨fun either => ?_, fun stays => Or.inr ⟨_, rfl, stays⟩⟩
    rcases either with refused | ⟨uses, same, stays⟩
    · cases refused
    · cases same
      exact stays
  have within := locate_within located
  rw [confined]
  cases request with
  | put bytes =>
      refine ⟨fun stays _puts => stays.1 _ (.asked _), fun inside => ?_⟩
      replace inside := inside ⟨bytes, rfl⟩
      refine ⟨fun place touches =>
        FileTree.makeFolders_touches rooted.closed rooted.there inside touches, fun _none after _made =>
        ⟨fun place touches => ?_, fun _bytes _last _done => trivial⟩⟩
      cases touches with
      | inside => exact inside
      | aside _folder _path _bytes name =>
          rw [FileTree.Within, FilePath.base_append]
          exact inside.trans (List.prefix_append ..)
      | replaced => exact within
  | get =>
      refine iff_of_true ⟨fun place touches => ?_, fun _bytes _after _read => trivial⟩
        (fun ⟨_bytes, impossible⟩ => nomatch impossible)
      cases touches with
      | read => exact within
  | remove =>
      refine iff_of_true ⟨fun place touches => ?_, fun _bytes _after _done => trivial⟩
        (fun ⟨_bytes, impossible⟩ => nomatch impossible)
      cases touches with
      | removed => exact within

/-- Where the folder for a file is not that of the blobs nor below it, it is the one above, and the
file cannot be put in its place. -/
theorem put_above (rooted : store.Rooted) (located : store.locate blob = .ok path)
    (above : ¬ FileTree.Within store.folder (FilePath.parent path)) (bytes : List UInt8)
    (place : FilePath) :
    (store.answer blob (.put bytes)).2.tree.at? place = store.tree.at? place := by
  rw [parent_within located, not_not] at above
  obtain ⟨dots, _some⟩ := above
  obtain ⟨onward, resolved⟩ := locate_onward located
  obtain ⟨front, last, split, whole⟩ := locate_concat located
  have dotted : "." ∈ path := by
    rw [whole, dots last (by simp [split])]
    exact List.mem_append_right _ List.mem_cons_self
  have parent : FilePath.parent path = (FilePath.base store.folder).dropLast := by
    rw [resolved]
    refine congrArg List.dropLast ((FilePath.base_resolve onward).trans ?_)
    rw [FilePath.base_eq_nil.mpr dots, List.append_nil]
  have there : store.tree.at? (FilePath.base (FilePath.parent path)) = some .folder := by
    rw [FilePath.base_parent, parent]
    exact rooted.closed.dropLast rooted.there
  have same : (store.tree.makeFolders (FilePath.parent path)).2.at? place = store.tree.at? place :=
    FileTree.makeFolders_unchanged rooted.closed there
  rw [answer, put, located]
  dsimp only
  rw [FileTree.write]
  split
  · rename_i made
    rw [made] at same
    exact same
  · rename_i middle made
    rw [made] at same
    split
    · exact same
    · rename_i after replaced
      exact absurd dotted (FileTree.replace_undotted (locate_settled located) replaced)

theorem answer_outside (rooted : store.Rooted) (blob : String) (request : BlobRequest)
    (outside : ¬ FileTree.Within store.folder place) :
    (store.answer blob request).2.tree.at? place = store.tree.at? place := by
  by_cases confined : store.Confined blob request
  · rw [answer_eq]
    rcases confined with refused | ⟨uses, comes, stays⟩
    · rw [refused]
      rfl
    · rw [comes]
      exact FileTree.perform_untouched stays outside
  · cases located : store.locate blob with
    | error cause =>
        have refused : store.uses blob request = .error cause := by
          rw [uses, located]
          rfl
        exact absurd (Or.inl (refused.trans (congrArg _ (uses_error refused)))) confined
    | ok path =>
        rw [confined_of_locate rooted located, Classical.not_imp] at confined
        obtain ⟨⟨bytes, rfl⟩, above⟩ := confined
        exact put_above rooted located above bytes place

theorem Rooted.answer (rooted : store.Rooted) (blob : String) (request : BlobRequest) :
    (store.answer blob request).2.Rooted := by
  cases request with
  | put bytes =>
      rw [BlobFolder.answer, put]
      cases located : store.locate blob with
      | error cause => exact rooted
      | ok path =>
          obtain ⟨closed, kept⟩ :=
            FileTree.write_keeps rooted.closed (locate_settled located) bytes
          exact ⟨closed, kept _ rooted.there⟩
  | get => exact rooted
  | remove =>
      rw [BlobFolder.answer, remove]
      cases located : store.locate blob with
      | error cause => exact rooted
      | ok path =>
          dsimp only
          cases removed : store.tree.remove path with
          | error cause => cases cause <;> exact rooted
          | ok after =>
              have undotted := FileTree.remove_undotted (locate_settled located) removed
              have builds := FileTree.remove_builds rooted.closed undotted removed
              exact ⟨builds.closed, builds.kept _ rooted.there⟩

/-- Requests keep to the folder of the blobs. -/
theorem confined_iff (rooted : store.Rooted) (blob : String) (request : BlobRequest) :
    store.answer blob request = store.carryOut blob request (store.uses blob request) ∧
      (∀ place, ¬ FileTree.Within store.folder place →
        (store.answer blob request).2.tree.at? place = store.tree.at? place) ∧
      (store.answer blob request).2.Rooted ∧
      (store.Confined blob request ↔
        ¬ ((∃ bytes, request = .put bytes) ∧ (∀ segment ∈ FilePath.segments blob, segment = ".") ∧
          FilePath.base store.folder ≠ [])) := by
  refine ⟨store.answer_eq blob request, fun place => answer_outside rooted blob request,
    rooted.answer blob request, ?_⟩
  cases located : store.locate blob with
  | ok path =>
      rw [confined_of_locate rooted located, parent_within located]
      exact not_and.symm
  | error cause =>
      have refused : store.uses blob request = .error cause := by
        rw [uses, located]
        rfl
      refine iff_of_true (Or.inl (refused.trans (congrArg _ (uses_error refused)))) ?_
      rintro ⟨_puts, dots, _some⟩
      have allowed : (FilePath.segments blob).all segmentAllowed = true :=
        List.all_eq_true.mpr (fun segment member => by rw [dots segment member]; decide)
      rw [locate, if_pos allowed] at located
      cases located

end BlobFolder

/-- The blobs of a repository that is opened have their folder. -/
theorem FileStorage.openRoot_rooted {storage : FileStorage} {root : Location} {registry : Interner}
    {tree after : FileTree} (closed : tree.Closed)
    (opened : openRoot root registry tree = (.ok storage, after)) : storage.blobs.Rooted := by
  have whole := (openRoot_keepsBlobs closed opened).closed
  obtain ⟨_, _, _, _, _rooting, _numbering, _shelving, stocking, rfl⟩ := openRoot_eq_ok opened
  exact ⟨whole, (FileTree.makeFolders_made stocking).2⟩

namespace Cellar

def blobs : BlobFolder :=
  ⟨["store", "blobs"], StoragePaths.volatile, (FileTree.empty.makeFolders ["store", "blobs"]).2⟩

theorem rooted : blobs.Rooted := by
  have made : FileTree.empty.makeFolders ["store", "blobs"] = (.ok (), blobs.tree) := by
    decide +kernel
  refine ⟨?_, (FileTree.makeFolders_made made).2⟩
  have grown := FileTree.makeFolders_grown FileTree.empty_closed ["store", "blobs"]
  rw [made] at grown
  exact grown.closed

theorem letter_confined : blobs.Rooted ∧ blobs.Confined "./letters/first" (.put [1, 2, 3]) ∧
    (blobs.answer "./letters/first" (.put [1, 2, 3])).2.tree.read
      ["store", "blobs", "letters", "first"] = .ok [1, 2, 3] := by
  refine ⟨rooted, (BlobFolder.confined_iff rooted "./letters/first" (.put [1, 2, 3])).2.2.2.mpr ?_,
    by decide +kernel⟩
  rintro ⟨_puts, dots, _some⟩
  exact absurd (dots "first" (by decide +kernel)) (by decide)

/-- The file is first written beside the folder of the blobs, and then has no place to go. -/
theorem dot_unconfined : ¬ ∀ (store : BlobFolder) (blob : String) (request : BlobRequest),
    store.Rooted → store.Confined blob request := by
  intro all
  have located : blobs.locate "." = .ok ["store", "blobs", "."] := by decide +kernel
  have confined := all blobs "." (.put [1]) rooted
  rw [BlobFolder.confined_of_locate rooted located] at confined
  exact absurd (confined ⟨[1], rfl⟩) (by decide +kernel)

end Cellar

end BundleStore
