import BundleStore.Index.StoragePaths
import BundleStore.Proofs.Storage.Memory

set_option autoImplicit false

/-! Where items lie below a folder. A name that steps neither up nor aside leads to a place of its
own, and the names of records and of blobs are of this kind. No two blobs have the same name, for
it tells the node, the numbers of namespace and local name, and the place. -/

namespace BundleStore

namespace FilePath

variable {text other : String}

theorem splitSlashes_eq (chars : List Char) : splitSlashes chars = chars.splitOn '/' := by
  induction chars with
  | nil => rfl
  | cons char rest ih =>
      rw [List.splitOn_cons_eq_if_modifyHead, ← ih]
      have split : splitSlashes rest ≠ [] := by
        rw [ih]
        exact List.splitOn_ne_nil '/' rest
      rw [splitSlashes, List.foldr_cons, ← splitSlashes]
      cases parts : splitSlashes rest with
      | nil => exact absurd parts split
      | cons first later => by_cases slash : char = '/' <;> simp [slash]

theorem segments_injective (same : segments text = segments other) : text = other := by
  have parts : splitSlashes text.toList = splitSlashes other.toList :=
    (List.map_inj_right (fun _left _right same => String.ofList_injective same)).mp same
  rw [splitSlashes_eq, splitSlashes_eq] at parts
  have joined := congrArg (List.intercalate ['/']) parts
  rw [List.intercalate_splitOn, List.intercalate_splitOn] at joined
  exact String.toList_injective joined

theorem segments_intercalate {names : List (List Char)} (some : names ≠ [])
    (clean : ∀ name ∈ names, '/' ∉ name) :
    segments (String.ofList (['/'].intercalate names)) = names.map String.ofList := by
  rw [segments, String.toList_ofList, splitSlashes_eq, List.splitOn_intercalate '/' clean some]

/-- The name leads on from the folder it is taken in. -/
def Onward (segment : String) : Prop := segment ≠ "" ∧ segment ≠ "." ∧ segment ≠ ".."

instance (segment : String) : Decidable (Onward segment) := inferInstanceAs (Decidable (_ ∧ _))

/-- The text leads on from folder to folder. -/
def Plain (text : String) : Prop := ∀ segment ∈ segments text, Onward segment

instance (text : String) : Decidable (Plain text) := inferInstanceAs (Decidable (∀ _ ∈ _, _))

/-- The path without the dots that stay in a folder. -/
def base (path : FilePath) : FilePath := path.filter (· ≠ ".")

theorem base_of_undotted {path : FilePath} (undotted : "." ∉ path) : base path = path :=
  List.filter_eq_self.mpr (fun _name member =>
    decide_eq_true (fun same => undotted (same ▸ member)))

theorem base_undotted (path : FilePath) : "." ∉ base path := by
  intro member
  exact absurd rfl (of_decide_eq_true (List.mem_filter.mp member).2)

theorem descend_onward {path : FilePath} {segment : String} (onward : Onward segment) :
    descend path segment = base path ++ [segment] := by
  rw [descend, if_neg onward.1, if_neg onward.2.2]
  rfl

theorem descend_all {path : FilePath} {names : List String} (some : names ≠ [])
    (onward : ∀ name ∈ names, Onward name) : names.foldl descend path = base path ++ names := by
  induction names generalizing path with
  | nil => exact absurd rfl some
  | cons name rest ih =>
      have first := onward name List.mem_cons_self
      rw [List.foldl_cons, descend_onward first]
      by_cases last : rest = []
      · rw [last]
        rfl
      · have undotted : "." ∉ base path ++ [name] := by
          rw [List.mem_append, List.mem_singleton, not_or]
          exact ⟨base_undotted path, Ne.symm first.2.1⟩
        rw [ih last (fun other member => onward other (List.mem_cons_of_mem _ member)),
          base_of_undotted undotted, List.append_assoc]
        rfl

theorem segments_ne_nil (text : String) : segments text ≠ [] := by
  rw [segments, splitSlashes_eq]
  simp

/-- A text that starts with a slash starts with no name. -/
theorem relative_of_named (named : "" ∉ segments text) : text.startsWith "/" = false := by
  rw [Bool.eq_false_iff]
  intro rooted
  obtain ⟨rest, whole⟩ := String.startsWith_string_iff.mp rooted
  apply named
  rw [segments, splitSlashes_eq, ← whole]
  change "" ∈ (List.splitOn '/' ([] ++ '/' :: rest)).map String.ofList
  rw [List.splitOn_append_cons_self_of_not_mem (by simp)]
  exact List.mem_cons_self

theorem Plain.relative (plain : Plain text) : text.startsWith "/" = false :=
  relative_of_named (fun member => (plain "" member).1 rfl)

theorem base_append (front rest : FilePath) : base (front ++ rest) = base front ++ base rest :=
  List.filter_append front rest

theorem base_base (path : FilePath) : base (base path) = base path :=
  base_of_undotted (base_undotted path)

theorem base_eq_nil {path : FilePath} : base path = [] ↔ ∀ name ∈ path, name = "." := by
  rw [base, List.filter_eq_nil_iff]
  simp

theorem base_parent (path : FilePath) : base (parent path) = parent path :=
  base_of_undotted (fun dotted => base_undotted path (List.dropLast_subset _ dotted))

theorem base_descend_all {names : List String} (start : FilePath)
    (onward : ∀ name ∈ names, name ≠ "" ∧ name ≠ "..") :
    base (names.foldl descend start) = base start ++ base names := by
  induction names generalizing start with
  | nil => exact (List.append_nil _).symm
  | cons name rest ih =>
      obtain ⟨some, notUp⟩ := onward name List.mem_cons_self
      have further := ih (descend start name)
        (fun other member => onward other (List.mem_cons_of_mem _ member))
      have next : base (descend start name) = base start ++ base [name] := by
        rw [descend, if_neg some, if_neg notUp]
        simp [base, List.filter_filter]
      rw [List.foldl_cons, further, next, List.append_assoc]
      exact congrArg (base start ++ ·) (base_append [name] rest).symm

/-- A text that does not step up stays below the folder. -/
theorem base_resolve {folder : FilePath} (onward : ∀ name ∈ segments text, name ≠ "" ∧ name ≠ "..") :
    base (FilePath.resolve folder text) = base folder ++ base (segments text) := by
  rw [FilePath.resolve, relative_of_named (fun member => (onward "" member).1 rfl),
    if_neg Bool.false_ne_true]
  exact base_descend_all _ onward

/-- Dots within the text go, but the last segment stays as it is. -/
theorem resolve_concat {folder : FilePath} {front : List String} {last : String}
    (split : segments text = front ++ [last])
    (onward : ∀ name ∈ segments text, name ≠ "" ∧ name ≠ "..") :
    FilePath.resolve folder text = base folder ++ base front ++ [last] := by
  obtain ⟨some, notUp⟩ := onward last (by simp [split])
  have early : ∀ name ∈ front, name ≠ "" ∧ name ≠ ".." := fun name member =>
    onward name (by simp [split, member])
  rw [FilePath.resolve, relative_of_named (fun member => (onward "" member).1 rfl),
    if_neg Bool.false_ne_true, split, List.foldl_append, List.foldl_cons, List.foldl_nil, descend,
    if_neg some, if_neg notUp]
  exact congrArg (· ++ [last]) (base_descend_all folder early)

theorem Plain.resolve (plain : Plain text) (folder : FilePath) :
    FilePath.resolve folder text = base folder ++ segments text := by
  rw [FilePath.resolve, plain.relative, if_neg Bool.false_ne_true]
  exact descend_all (segments_ne_nil text) plain

theorem Plain.undotted (plain : Plain text) (folder : FilePath) :
    "." ∉ FilePath.resolve folder text := by
  rw [plain.resolve, List.mem_append, not_or]
  exact ⟨base_undotted folder, fun member => (plain "." member).2.1 rfl⟩

end FilePath

/-! ### Names of nodes and properties -/

namespace FilePath

/-- Text of letters and digits leads on. -/
theorem onward_of_alphanum {chars : List Char} {char : Char} (there : char ∈ chars)
    (word : char.isAlphanum = true) : Onward (String.ofList chars) := by
  have differs {text : String} (none : char ∉ text.toList) : String.ofList chars ≠ text := by
    rintro rfl
    rw [String.toList_ofList] at none
    exact none there
  have notDot : char ≠ '.' := by
    rintro rfl
    cases word
  refine ⟨differs (by simp), differs ?_, differs ?_⟩ <;> simpa using notDot

end FilePath

namespace NodeId

theorem folderNames_ne_nil {id : NodeId} {name : List Char} (listed : name ∈ id.folderNames) :
    name ≠ [] := by
  have digits := id.length_digits
  apply List.ne_nil_of_length_pos
  simp only [folderNames, List.mem_cons, List.not_mem_nil, or_false] at listed
  rcases listed with rfl | rfl | rfl
  all_goals
    simp only [List.length_take, List.length_drop]
    omega

theorem segments_below (id : NodeId) {name : List Char} (clean : '/' ∉ name) :
    FilePath.segments (String.ofList (id.folderChars ++ '/' :: name)) =
      id.folderNames.map String.ofList ++ [String.ofList name] := by
  have whole : id.folderChars ++ '/' :: name = ['/'].intercalate (id.folderNames ++ [name]) := by
    simp [folderChars_eq, folderNames]
  rw [whole, FilePath.segments_intercalate (by simp), List.map_append]
  · rfl
  · intro part member
    rcases List.mem_append.mp member with listed | last
    · exact slashless_folderNames listed
    · rwa [List.mem_singleton.mp last]

theorem plain_below (id : NodeId) {name : List Char} (clean : '/' ∉ name)
    (onward : FilePath.Onward (String.ofList name)) :
    FilePath.Plain (String.ofList (id.folderChars ++ '/' :: name)) := by
  intro segment member
  rw [segments_below id clean, List.mem_append, List.mem_singleton] at member
  rcases member with folder | rfl
  · obtain ⟨part, listed, rfl⟩ := List.mem_map.mp folder
    obtain ⟨char, rest, rfl⟩ := List.exists_cons_of_ne_nil (folderNames_ne_nil listed)
    exact FilePath.onward_of_alphanum List.mem_cons_self
      (alphanum_of_folderNames listed _ List.mem_cons_self)
  · exact onward

end NodeId

namespace StoragePaths

/-- The name of a blob. -/
def blobChars (node : NodeId) (namespaceNumber nameNumber place : Nat) : List Char :=
  node.folderChars ++ '/' :: (Nat.toDigits 10 namespaceNumber ++
    '.' :: (Nat.toDigits 10 nameNumber ++ '.' :: Nat.toDigits 10 place))

theorem not_digit {number : Nat} {char : Char} (other : char.isDigit = false) :
    char ∉ Nat.toDigits 10 number := by
  intro member
  rw [Nat.isDigit_of_mem_toDigits (by decide) (by decide) member] at other
  cases other

theorem toDigits_injective {left right : Nat} (same : Nat.toDigits 10 left = Nat.toDigits 10 right) :
    left = right := by
  rw [← Nat.ofDigitChars_ten_toDigits (n := left), same, Nat.ofDigitChars_ten_toDigits]

theorem plain_blobChars (node : NodeId) (namespaceNumber nameNumber place : Nat) :
    FilePath.Plain (String.ofList (blobChars node namespaceNumber nameNumber place)) := by
  obtain ⟨first, rest, digits⟩ := List.exists_cons_of_ne_nil
    (Nat.toDigits_ne_nil (n := namespaceNumber) (b := 10))
  have leads : first ∈ Nat.toDigits 10 namespaceNumber := digits ▸ List.mem_cons_self
  have digit := Nat.isDigit_of_mem_toDigits (by decide) (by decide) leads
  apply NodeId.plain_below
  · have slashless (number : Nat) : '/' ∉ Nat.toDigits 10 number := not_digit (by decide)
    simp [slashless]
  · apply FilePath.onward_of_alphanum (List.mem_append_left _ leads)
    rw [Char.isAlphanum, digit, Bool.or_true]

theorem blobChars_injective {left right : NodeId}
    {leftSpace leftName leftPlace rightSpace rightName rightPlace : Nat}
    (same : blobChars left leftSpace leftName leftPlace =
      blobChars right rightSpace rightName rightPlace) :
    left = right ∧ leftSpace = rightSpace ∧ leftName = rightName ∧ leftPlace = rightPlace := by
  have dotless (number : Nat) : '.' ∉ Nat.toDigits 10 number := not_digit (by decide)
  obtain ⟨folders, names⟩ := List.append_inj same
    (by rw [NodeId.folderChars_length, NodeId.folderChars_length])
  have parts := congrArg (List.splitOn '.') (List.cons.inj names).2
  simp only [List.splitOn_append_cons_self_of_not_mem (dotless _),
    List.splitOn_eq_singleton (dotless _), List.cons.injEq] at parts
  obtain ⟨spaces, locals, places, _end⟩ := parts
  exact ⟨NodeId.folderChars_inj folders, toDigits_injective spaces, toDigits_injective locals,
    toDigits_injective places⟩

end StoragePaths

end BundleStore
