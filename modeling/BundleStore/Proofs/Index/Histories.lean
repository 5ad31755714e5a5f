import BundleStore.Proofs.Index.Numbers

set_option autoImplicit false

/-! Paths asked for at different times. Between two of them other names may come in, and the file of
an index may be anything, so that writing it fails or not. A path tells what it is for, a property or
a place of its value, whenever it was given; and once given it is given again. -/

namespace BundleStore

namespace StoragePaths

/-- Every number that has been handed out is still the one of its string. -/
structure Extends (after before : StoragePaths) : Prop where
  spaces : after.namespaces.interner.Extends before.namespaces.interner
  locals : after.names.interner.Extends before.names.interner

/-! ### What a path is for -/

inductive Subject where
  | property (id : PropertyId)
  | value (id : PropertyId) (place : Nat)
deriving DecidableEq

namespace Subject

def id : Subject → PropertyId
  | .property id => id
  | .value id _ => id

/-- What stands behind the numbers of the name. -/
def ending : Subject → List Char
  | .property _ => []
  | .value _ place => '.' :: Nat.toDigits 10 place

/-- The path, once the names have numbers. -/
def chars (subject : Subject) (namespaceNumber nameNumber : Nat) : List Char :=
  subject.id.node.folderChars ++ '/' :: Nat.toDigits 10 namespaceNumber ++
    '.' :: Nat.toDigits 10 nameNumber ++ subject.ending

variable {left right : Subject}

theorem eq_of_ending (nodes : left.id.node = right.id.node) (names : left.id.name = right.id.name)
    (endings : left.ending = right.ending) : left = right := by
  have same : left.id = right.id := congrArg₂ PropertyId.mk nodes names
  cases left <;> cases right
  case property.property => exact congrArg property same
  case property.value => cases endings
  case value.property => cases endings
  case value.value => exact congrArg₂ value same (toDigits_injective (List.cons.inj endings).2)

/-- What the path of a subject tells, and the path of no other. -/
theorem chars_injective {leftSpace leftName rightSpace rightName : Nat}
    (same : left.chars leftSpace leftName = right.chars rightSpace rightName) :
    leftSpace = rightSpace ∧ leftName = rightName ∧
      (left.id.name = right.id.name → left = right) := by
  have dotless (number : Nat) : '.' ∉ Nat.toDigits 10 number := not_digit (by decide)
  simp only [chars, List.append_assoc, List.cons_append] at same
  obtain ⟨folders, names⟩ := List.append_inj same
    (by rw [NodeId.folderChars_length, NodeId.folderChars_length])
  have nodes := NodeId.folderChars_inj folders
  -- Behind the folder a path has two numbers or three.
  have parts := congrArg (List.splitOn '.') (List.cons.inj names).2
  cases left <;> cases right <;>
    simp only [ending, List.append_nil, List.splitOn_append_cons_self_of_not_mem (dotless _),
      List.splitOn_eq_singleton (dotless _), List.cons.injEq, reduceCtorEq, and_false] at parts
  case property.property =>
    obtain ⟨spaces, locals, _end⟩ := parts
    exact ⟨toDigits_injective spaces, toDigits_injective locals,
      fun same => eq_of_ending nodes same rfl⟩
  case value.value =>
    obtain ⟨spaces, locals, places, _end⟩ := parts
    exact ⟨toDigits_injective spaces, toDigits_injective locals,
      fun same => eq_of_ending nodes same (congrArg ('.' :: ·) places)⟩

end Subject

variable {paths after : StoragePaths} {subject other : Subject} {spelled : String}
  {tree afterwards : FileTree}

def path (paths : StoragePaths) (subject : Subject) (tree : FileTree) :
    Except IndexError String × StoragePaths × FileTree :=
  match subject with
  | .property id => paths.propertyPath id tree
  | .value id place => paths.blobPath id place tree

theorem path_eq : paths.path subject tree =
    ((paths.propertyChars subject.id tree).1.map (fun chars => String.ofList (chars ++ subject.ending)),
      (paths.propertyChars subject.id tree).2) := by
  cases subject with
  | property id =>
      simp only [Subject.ending, List.append_nil]
      rfl
  | value id place => rfl

/-- The path is the one for the subject, by the numbers as they are. -/
def Gives (paths : StoragePaths) (subject : Subject) (spelled : String) : Prop :=
  ∃ namespaceNumber nameNumber,
    paths.namespaces.interner.number? subject.id.name.namespaceUri = some namespaceNumber ∧
    paths.names.interner.number? subject.id.name.localName = some nameNumber ∧
    spelled = String.ofList (subject.chars namespaceNumber nameNumber)

theorem Gives.later (gives : paths.Gives subject spelled) (extended : after.Extends paths) :
    after.Gives subject spelled := by
  obtain ⟨namespaceNumber, nameNumber, space, name, same⟩ := gives
  exact ⟨namespaceNumber, nameNumber, extended.spaces _ _ space, extended.locals _ _ name, same⟩

theorem Gives.injective (gives : paths.Gives subject spelled) (agrees : paths.Agrees)
    (also : paths.Gives other spelled) : subject = other := by
  obtain ⟨namespaceNumber, nameNumber, space, name, rfl⟩ := gives
  obtain ⟨otherSpace, otherName, spaceToo, nameToo, same⟩ := also
  obtain ⟨rfl, rfl, told⟩ := Subject.chars_injective (String.ofList_injective same)
  have spaces := agrees.spaces.injective space spaceToo
  have locals := agrees.locals.injective name nameToo
  exact told (congrArg₂ Name.mk spaces locals)

/-- Numbers that are known are not handed out again, and no file is written. -/
theorem Gives.path (gives : paths.Gives subject spelled) (tree : FileTree) :
    paths.path subject tree = (.ok spelled, paths, tree) := by
  obtain ⟨namespaceNumber, nameNumber, space, name, rfl⟩ := gives
  rw [path_eq, propertyChars, StringIndex.intern_known space]
  simp only [StringIndex.intern_known name]
  rfl

/-- What has been asked for is known afterwards, and all that was known before. -/
theorem path_gives {answer : Except IndexError String}
    (given : paths.path subject tree = (answer, after, afterwards)) :
    after.Extends paths ∧ ∀ path, answer = .ok path → after.Gives subject path := by
  rw [path_eq, propertyChars] at given
  rcases space : paths.namespaces.intern subject.id.name.namespaceUri tree with
    ⟨numbered, namespaces, middle⟩
  rw [space] at given
  cases numbered with
  | error cause =>
      cases given
      exact ⟨⟨StringIndex.intern_extends space, Interner.Extends.refl _⟩,
        fun _path impossible => by cases impossible⟩
  | ok namespaceNumber =>
      have spaceKnows := StringIndex.intern_knows space
      rcases name : paths.names.intern subject.id.name.localName middle with ⟨named, names, last⟩
      simp only [name] at given
      cases named with
      | error cause =>
          cases given
          exact ⟨⟨spaceKnows.extended, StringIndex.intern_extends name⟩,
            fun _path impossible => by cases impossible⟩
      | ok nameNumber =>
          have nameKnows := StringIndex.intern_knows name
          cases given
          exact ⟨⟨spaceKnows.extended, nameKnows.extended⟩, fun path same =>
            ⟨namespaceNumber, nameNumber, spaceKnows.number, nameKnows.number,
              (Except.ok.inj same).symm⟩⟩

theorem path_agrees {answer : Except IndexError String} (agrees : paths.Agrees)
    (given : paths.path subject tree = (answer, after, afterwards)) : after.Agrees := by
  rw [path_eq, propertyChars] at given
  rcases space : paths.namespaces.intern subject.id.name.namespaceUri tree with
    ⟨numbered, namespaces, middle⟩
  have spaces := StringIndex.intern_agrees agrees.spaces space
  rw [space] at given
  cases numbered with
  | error cause =>
      cases given
      exact ⟨spaces, agrees.locals⟩
  | ok namespaceNumber =>
      rcases name : paths.names.intern subject.id.name.localName middle with ⟨named, names, last⟩
      have locals := StringIndex.intern_agrees agrees.locals name
      simp only [name] at given
      cases named <;> cases given <;> exact ⟨spaces, locals⟩

/-! ### Where paths start -/

theorem volatile_agrees : volatile.Agrees := ⟨Interner.namespaces_agrees, Interner.empty_agrees⟩

/-- Whatever the files hold, paths that have been opened have their tables in step. -/
theorem openFolder_agrees {root : Location} {registry : Interner} (agrees : registry.Agrees)
    (opened : openFolder root registry tree = (.ok paths, afterwards)) : paths.Agrees := by
  simp only [openFolder] at opened
  split at opened
  · cases opened
  · rename_i namespaces given
    split at opened
    · cases opened
    · rename_i names later numbering
      cases opened
      refine ⟨?_, StringIndex.openFile_agrees numbering⟩
      split at given
      · exact StringIndex.load_agrees given
      · cases given
        exact agrees

/-! ### A history -/

structure Asked where
  subject : Subject
  answer : Except IndexError String

/-- How the paths have come to be as they are, with all that was asked for on the way. They start as
paths that have been made or opened, with their tables in step. The tree may be another one each
time, for others work on it too. -/
inductive History (start : StoragePaths) : List Asked → StoragePaths → Prop where
  | start (agrees : start.Agrees) : History start [] start
  | path {asked : List Asked} {paths after : StoragePaths} {subject : Subject}
      {answer : Except IndexError String} {tree later : FileTree}
      (history : History start asked paths)
      (given : paths.path subject tree = (answer, after, later)) :
      History start (asked ++ [⟨subject, answer⟩]) after
  | namespaceUri {asked : List Asked} {paths : StoragePaths} {text : String}
      {answer : Except IndexError Nat} {namespaces : StringIndex} {tree later : FileTree}
      (history : History start asked paths)
      (interned : paths.namespaces.intern text tree = (answer, namespaces, later)) :
      History start asked { paths with namespaces }
  | localName {asked : List Asked} {paths : StoragePaths} {text : String}
      {answer : Except IndexError Nat} {names : StringIndex} {tree later : FileTree}
      (history : History start asked paths)
      (interned : paths.names.intern text tree = (answer, names, later)) :
      History start asked { paths with names }

variable {start : StoragePaths} {asked : List Asked}

theorem History.agrees (history : History start asked paths) : paths.Agrees := by
  induction history with
  | start agrees => exact agrees
  | path _history given agrees => exact path_agrees agrees given
  | namespaceUri _history interned agrees =>
      exact ⟨StringIndex.intern_agrees agrees.spaces interned, agrees.locals⟩
  | localName _history interned agrees =>
      exact ⟨agrees.spaces, StringIndex.intern_agrees agrees.locals interned⟩

/-- Every path that was given is still the one for its subject. -/
theorem History.gives (history : History start asked paths) :
    ∀ one ∈ asked, ∀ path, one.answer = .ok path → paths.Gives one.subject path := by
  induction history with
  | start _agrees => exact fun _one member => nomatch member
  | path _history given ih =>
      obtain ⟨extended, gives⟩ := path_gives given
      intro one member path answered
      rcases List.mem_append.mp member with earlier | last
      · exact (ih one earlier path answered).later extended
      · obtain rfl := List.mem_singleton.mp last
        exact gives path answered
  | namespaceUri _history interned ih =>
      intro one member path answered
      exact (ih one member path answered).later
        ⟨StringIndex.intern_extends interned, Interner.Extends.refl _⟩
  | localName _history interned ih =>
      intro one member path answered
      exact (ih one member path answered).later
        ⟨Interner.Extends.refl _, StringIndex.intern_extends interned⟩

/-- Whenever they were given, two paths that are the same are for the same property, or for the same
place of the same property; and every path that was given is given again. -/
theorem History.paths_never_alias (history : History start asked paths) :
    (∀ left ∈ asked, ∀ right ∈ asked, ∀ path,
      left.answer = .ok path → right.answer = .ok path → left.subject = right.subject) ∧
    ∀ one ∈ asked, ∀ path, one.answer = .ok path →
      ∀ tree, paths.path one.subject tree = (.ok path, paths, tree) := by
  constructor
  · intro left leftAsked right rightAsked path leftGiven rightGiven
    exact (history.gives left leftAsked path leftGiven).injective history.agrees
      (history.gives right rightAsked path rightGiven)
  · intro one member path answered tree
    exact (history.gives one member path answered).path tree

def title : Subject := .property ⟨NodeId.zero, ⟨"", "title"⟩⟩

def letter : Subject := .value ⟨NodeId.zero, ⟨"urn:a", "letter"⟩⟩ 3

def titled : StoragePaths := (volatile.path title FileTree.empty).2.1

def lettered : StoragePaths := (titled.path letter FileTree.empty).2.1

/-- The letter brings a namespace and a local name. -/
theorem title_again :
    lettered ≠ titled ∧ ∀ tree, lettered.path title tree =
      (.ok "00/00/0000000000000000000000000000/0.0", lettered, tree) := by
  have history : History volatile
      ([] ++ [⟨title, (volatile.path title FileTree.empty).1⟩] ++
        [⟨letter, (titled.path letter FileTree.empty).1⟩]) lettered :=
    .path (.path (.start volatile_agrees) rfl) rfl
  exact ⟨by decide, history.paths_never_alias.2 _ List.mem_cons_self _ (by decide)⟩

end StoragePaths

end BundleStore
