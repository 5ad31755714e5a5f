import BundleStore.Proofs.Files.Paths
import BundleStore.Proofs.Files.Trees
import BundleStore.Proofs.Index.Interners

set_option autoImplicit false

/-! Numbers that have been handed out stay with their strings, and no two strings share one. An
index that keeps its mapping in a file has it there as a whole whenever a string has come in; if the
file cannot be replaced, neither index nor file is different. -/

namespace BundleStore

namespace StringIndex

variable {index after : StringIndex} {text : String} {tree later : FileTree} {number : Nat}

/-- What an index has become that has handed out a number. -/
structure Knows (text : String) (number : Nat) (before after : StringIndex) : Prop where
  number : after.interner.number? text = some number
  extended : after.interner.Extends before.interner
  file : after.file = before.file

/-- A number is the one that the string has had, or a new one; then the mapping has been saved if it
is kept. -/
theorem intern_ok (interned : index.intern text tree = (.ok number, after, later)) :
    (index.interner.number? text = some number ∧ after = index ∧ later = tree) ∨
      index.interner.number? text = none ∧ number = index.interner.size ∧
        after = ⟨(index.interner.push text).2, index.file⟩ ∧
        match index.file with
        | none => later = tree
        | some location => save location (index.interner.push text).2 tree = .ok later := by
  rw [intern, internBy] at interned
  split at interned
  · rename_i known
    cases interned
    exact Or.inl ⟨known, rfl, rfl⟩
  · rename_i absent
    refine Or.inr ⟨absent, ?_⟩
    cases file : index.file with
    | none =>
        simp only [file] at interned
        cases interned
        exact ⟨rfl, rfl, rfl⟩
    | some location =>
        simp only [file] at interned
        split at interned
        · cases interned
        · rename_i saved
          cases interned
          exact ⟨rfl, rfl, saved⟩

theorem intern_knows (interned : index.intern text tree = (.ok number, after, later)) :
    Knows text number index after := by
  rcases intern_ok interned with ⟨known, rfl, _same⟩ | ⟨absent, rfl, rfl, _saved⟩
  · exact ⟨known, Interner.Extends.refl _, rfl⟩
  · exact ⟨Interner.number?_push, Interner.push_extends absent, rfl⟩

theorem intern_volatile (unkept : index.file = none) (text : String) (tree : FileTree) :
    ∃ number after, index.intern text tree = (.ok number, after, tree) := by
  unfold intern internBy
  split
  · exact ⟨_, _, rfl⟩
  · rw [unkept]
    exact ⟨_, _, rfl⟩

theorem internBy_known (known : index.interner.number? text = some number) (saves : Saving)
    (tree : FileTree) : index.internBy saves text tree = (.ok number, index, tree) := by
  unfold internBy
  rw [known]

theorem intern_known (known : index.interner.number? text = some number) (tree : FileTree) :
    index.intern text tree = (.ok number, index, tree) := internBy_known known save tree

/-- The string has been numbered before the mapping could not be saved, and has no number again. -/
theorem internBy_error {saves : Saving} {cause : IndexError}
    (failed : index.internBy saves text tree = (.error cause, after, later)) :
    after = index ∧ later = tree := by
  rw [internBy] at failed
  split at failed
  · cases failed
  · rename_i absent
    simp only at failed
    split at failed
    · cases failed
    · split at failed
      · cases failed
        rw [Interner.pop_push absent]
        exact ⟨rfl, rfl⟩
      · cases failed

theorem intern_error {cause : IndexError}
    (failed : index.intern text tree = (.error cause, after, later)) :
    after = index ∧ later = tree := internBy_error failed

theorem intern_agrees {answer : Except IndexError Nat} (agrees : index.interner.Agrees)
    (interned : index.intern text tree = (answer, after, later)) : after.interner.Agrees := by
  cases answer with
  | error cause =>
      rw [(intern_error interned).1]
      exact agrees
  | ok number =>
      rcases intern_ok interned with ⟨_known, rfl, _same⟩ | ⟨absent, _number, rfl, _saved⟩
      · exact agrees
      · exact agrees.push absent

theorem intern_extends {answer : Except IndexError Nat}
    (interned : index.intern text tree = (answer, after, later)) :
    after.interner.Extends index.interner := by
  cases answer with
  | ok number => exact (intern_knows interned).extended
  | error cause =>
      rw [(intern_error interned).1]
      exact Interner.Extends.refl _

/-! ### Opening -/

/-- Whatever is read from a file has its tables in step. -/
theorem parse_agrees {bytes : List UInt8} {interner : Interner}
    (parsed : parse bytes = .ok interner) : interner.Agrees := by
  rw [parse] at parsed
  split at parsed
  · cases parsed
    exact Interner.empty_agrees
  · split at parsed
    · cases parsed
    · exact Interner.ofPairs_agrees parsed

theorem load_agrees {location : Location} (loaded : load location tree = .ok index) :
    index.interner.Agrees := by
  rw [load] at loaded
  split at loaded
  · cases loaded
  · split at loaded
    · cases loaded
    · rename_i parsed
      cases loaded
      exact parse_agrees parsed

theorem openFile_agrees {location : Location}
    (opened : openFile location tree = (.ok index, later)) : index.interner.Agrees := by
  rw [openFile] at opened
  split at opened
  · exact load_agrees (Prod.mk.inj opened).1
  · rw [create] at opened
    split at opened
    · cases opened
    · split at opened
      · cases opened
      · cases opened
        exact Interner.empty_agrees

/-! ### The file -/

/-- The file holds the mapping of the index. -/
def Keeps (location : Location) (index : StringIndex) (tree : FileTree) : Prop :=
  index.file = some location ∧ tree.bytes? location.path = some (fileBytes index.interner)

theorem save_ok {location : Location} {interner : Interner} (closed : tree.Closed)
    (undotted : "." ∉ location.path) (saved : save location interner tree = .ok later) :
    FileTree.Sets location.path (some (fileBytes interner)) tree later :=
  FileTree.replace_ok closed undotted saved

/-- The file is at most replaced by the one that belongs to the index. -/
theorem intern_kept {location : Location} (closed : tree.Closed) (undotted : "." ∉ location.path)
    (keeps : index.Keeps location tree)
    (interned : index.intern text tree = (.ok number, after, later)) :
    after.Keeps location later ∧
      FileTree.Sets location.path (some (fileBytes after.interner)) tree later := by
  rcases intern_ok interned with ⟨_known, rfl, rfl⟩ | ⟨absent, _number, rfl, saved⟩
  · exact ⟨keeps, closed, keeps.2, fun _other _plain _differs => rfl⟩
  · rw [keeps.1] at saved ⊢
    have sets := save_ok closed undotted saved
    exact ⟨⟨rfl, sets.here⟩, sets⟩

end StringIndex

/-! ### Names of blobs -/

namespace StoragePaths

variable {paths after : StoragePaths} {property other : PropertyId} {place otherPlace : Nat}
  {blob : String}

/-- Both indexes have their tables in step. -/
structure Agrees (paths : StoragePaths) : Prop where
  spaces : paths.namespaces.interner.Agrees
  locals : paths.names.interner.Agrees

/-- The blob is the one for this place of the property, by the numbers as they are. -/
def Names (paths : StoragePaths) (property : PropertyId) (place : Nat) (blob : String) : Prop :=
  ∃ namespaceNumber nameNumber,
    paths.namespaces.interner.number? property.name.namespaceUri = some namespaceNumber ∧
    paths.names.interner.number? property.name.localName = some nameNumber ∧
    blob = String.ofList (blobChars property.node namespaceNumber nameNumber place)

theorem Names.plain (names : paths.Names property place blob) : FilePath.Plain blob := by
  obtain ⟨namespaceNumber, nameNumber, _space, _name, rfl⟩ := names
  exact plain_blobChars property.node namespaceNumber nameNumber place

theorem Names.unique {second : String} (first : paths.Names property place blob)
    (also : paths.Names property place second) : blob = second := by
  obtain ⟨namespaceNumber, nameNumber, space, name, rfl⟩ := first
  obtain ⟨_namespaceNumber, _nameNumber, sameSpace, sameName, rfl⟩ := also
  rw [space] at sameSpace
  rw [name] at sameName
  cases sameSpace
  cases sameName
  rfl

/-- The node and the place are told by the identifier itself, whatever the tables say. -/
theorem Names.told (left : paths.Names property place blob)
    (right : paths.Names other otherPlace blob) :
    property.node = other.node ∧ place = otherPlace := by
  obtain ⟨namespaceNumber, nameNumber, _space, _name, rfl⟩ := left
  obtain ⟨_otherSpace, _otherName, _spaceToo, _nameToo, same⟩ := right
  obtain ⟨nodes, _spaces, _locals, places⟩ := blobChars_injective (String.ofList_injective same)
  exact ⟨nodes, places⟩

theorem Names.injective (left : paths.Names property place blob) (agrees : paths.Agrees)
    (right : paths.Names other otherPlace blob) : property = other ∧ place = otherPlace := by
  obtain ⟨namespaceNumber, nameNumber, space, name, rfl⟩ := left
  obtain ⟨otherSpace, otherName, spaceToo, nameToo, same⟩ := right
  obtain ⟨nodes, rfl, rfl, places⟩ := blobChars_injective (String.ofList_injective same)
  have spaces := agrees.spaces.injective space spaceToo
  have locals := agrees.locals.injective name nameToo
  exact ⟨congrArg₂ PropertyId.mk nodes (congrArg₂ Name.mk spaces locals), places⟩

/-- Numbers that are known are not handed out again. -/
theorem Names.blobPath (names : paths.Names property place blob) (tree : FileTree) :
    paths.blobPath property place tree = (.ok blob, paths, tree) := by
  obtain ⟨namespaceNumber, nameNumber, space, name, rfl⟩ := names
  rw [StoragePaths.blobPath, propertyChars, StringIndex.intern_known space]
  simp only [StringIndex.intern_known name, Except.map, blobChars, List.append_assoc,
    List.cons_append]

theorem Names.later (names : paths.Names property place blob)
    (spaces : after.namespaces.interner.Extends paths.namespaces.interner)
    (locals : after.names.interner.Extends paths.names.interner) :
    after.Names property place blob := by
  obtain ⟨namespaceNumber, nameNumber, space, name, same⟩ := names
  exact ⟨namespaceNumber, nameNumber, spaces _ _ space, locals _ _ name, same⟩

end StoragePaths

end BundleStore
