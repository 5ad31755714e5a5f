import BundleStore.Proofs.Index.Mappings
import BundleStore.Proofs.Index.Numbers
import BundleStore.Proofs.Storage.Openings
import Mathlib.Data.List.Dedup
import Mathlib.Data.List.Perm.Subperm

set_option autoImplicit false

/-! The life of an index that is kept in a file. It is opened where there is no file, numbers
strings, and may be dropped and opened again in between; any write may fail, and whatever goes on in
other files. A number, once handed out, stays with its string, and the numbers are those of an index
that is not kept at all and sees the successful calls only. -/

namespace BundleStore

/-! ### Where a file can be -/

namespace FilePath

/-- A dot stands at the end only. -/
def Settled (path : FilePath) : Prop := "." ∉ path.dropLast

instance (path : FilePath) : Decidable (Settled path) := inferInstanceAs (Decidable (_ ∉ _))

theorem Settled.of_dotted {path : FilePath} (settled : Settled path) (dotted : "." ∈ path) :
    ∃ front, path = front ++ ["."] := by
  rcases path.eq_nil_or_concat with rfl | ⟨front, last, rfl⟩
  · cases dotted
  · rw [List.concat_eq_append] at settled dotted
    rw [Settled, List.dropLast_concat] at settled
    rcases List.mem_append.mp dotted with early | final
    · exact absurd early settled
    · exact ⟨front, List.concat_eq_append.trans (by rw [List.mem_singleton.mp final])⟩

theorem descend_settled {path : FilePath} (settled : Settled path) (segment : String) :
    Settled (descend path segment) := by
  unfold descend
  split
  · exact settled
  · split
    · intro dotted
      exact base_undotted path (List.dropLast_subset _ (List.dropLast_subset _ dotted))
    · rw [Settled, List.dropLast_concat]
      exact base_undotted path

/-- Texts lead to nothing else. -/
theorem resolve_settled {folder : FilePath} (settled : Settled folder) (text : String) :
    Settled (resolve folder text) := by
  have fold (segments : List String) {start : FilePath} (first : Settled start) :
      Settled (segments.foldl descend start) := by
    induction segments generalizing start with
    | nil => exact first
    | cons segment rest ih => exact ih (descend_settled first segment)
  rw [resolve]
  split
  · exact fold _ (by simp [Settled])
  · exact fold _ settled

end FilePath

namespace FileTree

variable {tree after : FileTree} {folder path : FilePath} {bytes : List UInt8}

/-- What a closing dot leads to is a folder. -/
theorem walk_dot {here rest : FilePath} {start node : FileNode}
    (found : tree.walk here start (rest ++ ["."]) = .ok node) : node = .folder := by
  induction rest generalizing here start with
  | nil =>
      cases start with
      | file held => cases found
      | folder =>
          cases found
          rfl
  | cons name rest ih =>
      cases start with
      | file held => cases found
      | folder =>
          rw [List.cons_append, walk] at found
          split at found
          · exact ih found
          · split at found
            · cases found
            · split at found
              · cases found
              · exact ih found

/-- No file can be put in the place of a path with a closing dot. -/
theorem replace_undotted (settled : FilePath.Settled path)
    (replaced : tree.replace folder path bytes = .ok after) : "." ∉ path := by
  intro dotted
  obtain ⟨front, rfl⟩ := settled.of_dotted dotted
  rw [replace] at replaced
  split at replaced
  · cases replaced
  · cases replaced
  · split at replaced
    · cases replaced
    · rename_i held found
      rw [find] at found
      split at found
      · cases found
      · cases walk_dot found
    · rw [if_pos List.getLast?_concat] at replaced
      cases replaced
    · cases replaced

end FileTree

namespace StringIndex

variable {location : Location} {index after : StringIndex} {tree later : FileTree} {text : String}

/-! ### Calls whose write may fail -/

/-- The file is written as it is meant to be, or left as it is. -/
def Honest (saves : Saving) : Prop :=
  ∀ location interner tree, saves location interner tree = save location interner tree ∨
    ∃ cause, saves location interner tree = .error cause

/-- Either the write does what it should, or the call has done nothing in the end. -/
theorem internBy_cases {saves : Saving} (honest : Honest saves) (index : StringIndex) (text : String)
    (tree : FileTree) :
    index.internBy saves text tree = index.intern text tree ∨
      ∃ cause, index.internBy saves text tree = (.error (.io cause), index, tree) := by
  cases known : index.interner.number? text with
  | some number =>
      left
      rw [internBy_known known, intern_known known]
  | none =>
      simp only [intern, internBy, known]
      cases file : index.file with
      | none => exact Or.inl rfl
      | some location =>
          rcases honest location (index.interner.push text).2 tree with same | ⟨cause, failed⟩
          · left
            simp only [same]
          · right
            refine ⟨cause, ?_⟩
            simp only [failed, Interner.pop_push known]
            rw [← file]

/-! ### A life -/

structure Call where
  text : String
  answer : Except IndexError Nat

/-- How an index has come to be as it is, with the calls on the way. -/
inductive Life (location : Location) : List Call → StringIndex → FileTree → Prop where
  | opened {index : StringIndex} {tree after : FileTree} (closed : tree.Closed)
      (settled : FilePath.Settled location.path) (absent : tree.has location.path = false)
      (opens : openFile location tree = (.ok index, after)) : Life location [] index after
  | called {calls : List Call} {index next : StringIndex} {tree after : FileTree} {text : String}
      {answer : Except IndexError Nat} {saves : Saving} (life : Life location calls index tree)
      (honest : Honest saves) (answers : index.internBy saves text tree = (answer, next, after)) :
      Life location (calls ++ [⟨text, answer⟩]) next after
  | elsewhere {calls : List Call} {index : StringIndex} {tree after : FileTree}
      (life : Life location calls index tree) (closed : after.Closed)
      (same : after.bytes? location.path = tree.bytes? location.path) :
      Life location calls index after
  | reopened {calls : List Call} {index next : StringIndex} {tree after : FileTree}
      (life : Life location calls index tree)
      (opens : openFile location tree = (.ok next, after)) : Life location calls next after

/-- Interns one string after the other. -/
def internAll (index : StringIndex) (tree : FileTree) :
    List String → List (Except IndexError Nat) × StringIndex × FileTree
  | [] => ([], index, tree)
  | text :: rest =>
      let (answer, index, tree) := index.intern text tree
      let (answers, index, tree) := internAll index tree rest
      (answer :: answers, index, tree)

theorem internAll_concat {texts : List String} {answers : List (Except IndexError Nat)}
    {start : StringIndex} (before : start.internAll tree texts = (answers, index, later))
    (text : String) :
    start.internAll tree (texts ++ [text]) =
      (answers ++ [(index.intern text later).1], (index.intern text later).2) := by
  induction texts generalizing start tree answers with
  | nil =>
      cases before
      rfl
  | cons first rest ih =>
      rw [List.cons_append, internAll]
      rw [internAll] at before
      rcases step : start.intern first tree with ⟨answer, next, middle⟩
      rcases steps : next.internAll middle rest with ⟨others, last, final⟩
      simp only [step, steps] at before ⊢
      cases before
      rw [ih steps]
      rfl

/-- The calls that gave a number. -/
def answered (calls : List Call) : List Call := calls.filter (fun call => call.answer.isOk)

/-- The same texts, interned without a file, get the same numbers. -/
def Replays (calls : List Call) (interner : Interner) : Prop :=
  ∀ tree, (volatile Interner.empty).internAll tree (calls.map Call.text) =
    (calls.map Call.answer, volatile interner, tree)

/-- An earlier answer is a later one. -/
def Lasting (early late : Call) : Prop :=
  early.text = late.text → ∀ number, early.answer = .ok number → late.answer = .ok number

/-- What holds of an index at any point of its life. -/
structure Living (location : Location) (calls : List Call) (index : StringIndex)
    (tree : FileTree) : Prop where
  closed : tree.Closed
  undotted : "." ∉ location.path
  keeps : index.Keeps location tree
  agrees : index.interner.Agrees
  lasting : calls.Pairwise Lasting
  numbered : ∀ call ∈ calls, ∀ number, call.answer = .ok number →
    index.interner.number? call.text = some number
  called : ∀ text ∈ index.interner.byIndex, ∃ number, ⟨text, .ok number⟩ ∈ calls
  replays : Replays (answered calls) index.interner

variable {calls : List Call} {answer : Except IndexError Nat} {number : Nat}

theorem opens_living (closed : tree.Closed) (settled : FilePath.Settled location.path)
    (absent : tree.has location.path = false)
    (opens : openFile location tree = (.ok index, later)) : Living location [] index later := by
  rw [openFile, absent, if_neg Bool.false_ne_true, create] at opens
  have grown := FileTree.makeFolders_grown closed (FilePath.parent location.path)
  split at opens
  · cases opens
  · rename_i made folders
    rw [folders] at grown
    split at opens
    · cases opens
    · rename_i saved
      cases opens
      have undotted := FileTree.replace_undotted settled saved
      have sets := save_ok grown.closed undotted saved
      exact ⟨sets.closed, undotted, ⟨rfl, sets.here⟩, Interner.empty_agrees, .nil, by simp,
        by simp [Interner.empty], fun _tree => rfl⟩

theorem answered_concat (calls : List Call) (text : String) (answer : Except IndexError Nat) :
    answered (calls ++ [⟨text, answer⟩]) =
      answered calls ++ if answer.isOk then [⟨text, answer⟩] else [] := by
  rw [answered, answered, List.filter_append]
  cases answer <;> rfl

/-- An index without a file gives the number that one with a file gives. -/
theorem Replays.concat (replays : Replays calls index.interner)
    (interned : index.intern text tree = (.ok number, after, later)) :
    Replays (calls ++ [⟨text, .ok number⟩]) after.interner := by
  intro anywhere
  have volatile_intern : (volatile index.interner).intern text anywhere =
      (.ok number, volatile after.interner, anywhere) := by
    rcases intern_ok interned with ⟨known, rfl, _same⟩ | ⟨absent, rfl, rfl, _saved⟩
    · have given : (volatile after.interner).interner.number? text = some number := known
      exact intern_known given anywhere
    · simp only [intern, internBy, volatile, absent]
      rfl
  rw [List.map_append, List.map_singleton, internAll_concat (replays anywhere), volatile_intern,
    List.map_append, List.map_singleton]

theorem Living.interned (living : Living location calls index tree)
    (interned : index.intern text tree = (.ok number, after, later)) :
    Living location (calls ++ [⟨text, .ok number⟩]) after later := by
  have knows := intern_knows interned
  obtain ⟨keeps, sets⟩ := intern_kept living.closed living.undotted living.keeps interned
  have known : ∀ call ∈ calls, ∀ given, call.answer = .ok given →
      after.interner.number? call.text = some given :=
    fun call member given same => knows.extended _ _ (living.numbered call member given same)
  refine ⟨sets.closed, living.undotted, keeps, intern_agrees living.agrees interned, ?_, ?_, ?_, ?_⟩
  · refine List.pairwise_append.mpr ⟨living.lasting, List.pairwise_singleton _ _, ?_⟩
    intro early member late last same given before
    obtain rfl := List.mem_singleton.mp last
    have first := known early member given before
    rw [same, knows.number] at first
    rw [Option.some.inj first]
  · intro call member given same
    rcases List.mem_append.mp member with early | last
    · exact known call early given same
    · obtain rfl := List.mem_singleton.mp last
      cases same
      exact knows.number
  · intro held member
    have old : ∀ other ∈ index.interner.byIndex,
        ∃ given, ⟨other, .ok given⟩ ∈ calls ++ [⟨text, .ok number⟩] := fun other there =>
      (living.called other there).imp (fun _given before => List.mem_append_left _ before)
    rcases intern_ok interned with ⟨_known, rfl, _same⟩ | ⟨absent, _number, rfl, _saved⟩
    · exact old held member
    · rcases List.mem_append.mp member with early | last
      · exact old held early
      · obtain rfl := List.mem_singleton.mp last
        exact ⟨number, List.mem_append_right _ (List.mem_singleton_self _)⟩
  · rw [answered_concat]
    exact living.replays.concat interned

/-- A string that has a number is never refused one. -/
theorem Living.refused (living : Living location calls index tree) {saves : Saving}
    {cause : IndexError} (failed : index.internBy saves text tree = (.error cause, after, later)) :
    Living location (calls ++ [⟨text, .error cause⟩]) after later := by
  have unknown : ∀ call ∈ calls, call.text = text → ∀ given, call.answer ≠ .ok given := by
    intro call member same given before
    have known := living.numbered call member given before
    rw [same] at known
    rw [internBy_known known] at failed
    cases failed
  obtain ⟨rfl, rfl⟩ := internBy_error failed
  refine ⟨living.closed, living.undotted, living.keeps, living.agrees, ?_, ?_, ?_, ?_⟩
  · refine List.pairwise_append.mpr ⟨living.lasting, List.pairwise_singleton _ _, ?_⟩
    intro early member late last same given before
    obtain rfl := List.mem_singleton.mp last
    exact absurd before (unknown early member same given)
  · intro call member given same
    rcases List.mem_append.mp member with early | last
    · exact living.numbered call early given same
    · obtain rfl := List.mem_singleton.mp last
      cases same
  · exact fun held there =>
      (living.called held there).imp (fun _given before => List.mem_append_left _ before)
  · rw [answered_concat, Except.isOk, Except.toBool, if_neg Bool.false_ne_true, List.append_nil]
    exact living.replays

theorem Living.after_call (living : Living location calls index tree) {saves : Saving}
    (honest : Honest saves) (answers : index.internBy saves text tree = (answer, after, later)) :
    Living location (calls ++ [⟨text, answer⟩]) after later := by
  cases answer with
  | error cause => exact living.refused answers
  | ok number =>
      rcases internBy_cases honest index text tree with same | ⟨cause, failed⟩
      · rw [same] at answers
        exact living.interned answers
      · rw [failed] at answers
        cases answers

/-- If the file can be read, it holds the index. -/
theorem Living.reopens (living : Living location calls index tree) :
    openFile location tree =
      (if index.interner.size ≤ Json.Mapping.indexLimit then .ok index
        else .error (.corrupt location.shown .unreadable), tree) := by
  obtain ⟨file, held⟩ := living.keeps
  have read : tree.read location.path = .ok (fileBytes index.interner) :=
    (FileTree.read_ok living.closed living.undotted).mpr
      ((FileTree.bytes?_eq_some living.closed living.undotted).mp held)
  rw [openFile, if_pos (FileTree.has_of_readable held)]
  simp only [load, read, parse_fileBytes living.agrees]
  obtain ⟨interner, kept⟩ := index
  cases file
  by_cases small : interner.size ≤ Json.Mapping.indexLimit
  · simp only [if_pos small]
  · simp only [if_neg small]

theorem Life.living (life : Life location calls index tree) : Living location calls index tree := by
  induction life with
  | opened closed settled absent opens => exact opens_living closed settled absent opens
  | called _life honest answers living => exact living.after_call honest answers
  | elsewhere _life closed same living =>
      exact { living with
        closed
        keeps := ⟨living.keeps.1, same.trans living.keeps.2⟩ }
  | reopened _life opens living =>
      rw [living.reopens] at opens
      split at opens
      · cases opens
        exact living
      · cases opens

/-- There are at most as many numbers as there were different texts. -/
theorem Living.size_le (living : Living location calls index tree) :
    index.interner.size ≤ (calls.map Call.text).dedup.length := by
  refine (List.subperm_of_subset living.agrees.distinct ?_).length_le
  intro text member
  obtain ⟨number, there⟩ := living.called text member
  exact List.mem_dedup.mpr (List.mem_map.mpr ⟨_, there, rfl⟩)

/-! ### Numbers that stay -/

/-- The mapping is the one that the calls have made, in both tables of the index and in its file. -/
structure Stable (location : Location) (calls : List Call) (index : StringIndex)
    (tree : FileTree) : Prop where
  lasting : calls.Pairwise Lasting
  repeated : ∀ text number, ⟨text, .ok number⟩ ∈ calls →
    ∀ saves, index.internBy saves text tree = (.ok number, index, tree)
  interned : ∀ text, (index.interner.number? text).isSome ↔ ∃ number, ⟨text, .ok number⟩ ∈ calls
  inverse : ∀ text number,
    index.interner.number? text = some number ↔ index.interner.string? number = some text
  dense : ∀ number, (index.interner.string? number).isSome ↔ number < index.interner.size
  listed : ∀ text number,
    (text, number) ∈ index.interner.entries ↔ index.interner.number? text = some number
  ordered : index.interner.entries.map Prod.snd = List.range index.interner.size
  failed : ∀ saves text cause after later,
    index.internBy saves text tree = (.error cause, after, later) → after = index ∧ later = tree
  kept : tree.bytes? location.path = some (fileBytes index.interner)
  reopens : openFile location tree = (.ok index, tree)
  replays : Replays (answered calls) index.interner

theorem Life.mapping_stable (life : Life location calls index tree)
    (few : (calls.map Call.text).dedup.length < 2 ^ 32) : Stable location calls index tree := by
  have living := life.living
  have size := living.size_le
  have limit : Json.Mapping.indexLimit = 2 ^ 32 := rfl
  have small : index.interner.size ≤ Json.Mapping.indexLimit := by omega
  refine
    { lasting := living.lasting
      repeated := fun text number member saves =>
        internBy_known (living.numbered _ member number rfl) saves tree
      interned := fun text => ⟨fun some => ?_, fun ⟨number, member⟩ => ?_⟩
      inverse := living.agrees
      dense := fun number => by simp [Interner.string?, Interner.size]
      listed := fun text number =>
        Interner.mem_entries.trans (living.agrees text number).symm
      ordered := by rw [Interner.entries, List.zipIdx_map_snd, List.range_eq_range']; rfl
      failed := fun saves text cause after later => internBy_error
      kept := living.keeps.2
      reopens := by rw [living.reopens, if_pos small]
      replays := living.replays }
  · obtain ⟨number, known⟩ := Option.isSome_iff_exists.mp some
    exact living.called text (List.mem_of_getElem? ((living.agrees text number).mp known))
  · rw [living.numbered _ member number rfl]
    rfl

/-- A name whose first write fails, and another one after the index has been opened anew. -/
theorem names_mapping_stable :
    let shelf : Location := ⟨"names.json", ["names.json"]⟩
    let calls : List Call :=
      [⟨"letter", .error (.io .notFound)⟩, ⟨"letter", .ok 0⟩, ⟨"body", .ok 1⟩]
    let letter := (Interner.empty.intern "letter").2
    let index : StringIndex := ⟨(letter.intern "body").2, some shelf⟩
    ∃ tree, Life shelf calls index tree ∧ (calls.map Call.text).dedup.length < 2 ^ 32 ∧
      Stable shelf calls index tree := by
  intro shelf calls letter index
  let refuse : Saving := fun _location _interner _tree => .error .notFound
  have refuses : Honest refuse := fun _location _interner _tree => Or.inr ⟨.notFound, rfl⟩
  have saves : Honest save := fun _location _interner _tree => Or.inl rfl
  let made := (openFile shelf .empty).2
  have opened : Life shelf [] ⟨Interner.empty, some shelf⟩ made :=
    .opened FileTree.empty_closed (by decide) rfl rfl
  -- The name has been given a number that is saved nowhere, and loses it again.
  have unsaved : internBy refuse ⟨Interner.empty, some shelf⟩ "letter" made =
      (.error (.io .notFound), ⟨Interner.empty, some shelf⟩, made) :=
    congrArg (fun interner => (Except.error _, StringIndex.mk interner _, made))
      (Interner.pop_push rfl)
  have refused : Life shelf [⟨"letter", .error (.io .notFound)⟩] ⟨Interner.empty, some shelf⟩ made :=
    opened.called refuses unsaved
  let written := (internBy save ⟨Interner.empty, some shelf⟩ "letter" made).2.2
  have numbered : Life shelf [⟨"letter", .error (.io .notFound)⟩, ⟨"letter", .ok 0⟩]
      ⟨letter, some shelf⟩ written := refused.called saves rfl
  have again := numbered.living.reopens
  rw [if_pos (by decide)] at again
  have whole : Life shelf calls index (internBy save ⟨letter, some shelf⟩ "body" written).2.2 :=
    (numbered.reopened again).called saves rfl
  have few : (calls.map Call.text).dedup.length < 2 ^ 32 := by decide
  exact ⟨_, whole, few, whole.mapping_stable few⟩

end StringIndex

end BundleStore
