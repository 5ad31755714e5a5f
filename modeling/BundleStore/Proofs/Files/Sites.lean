import BundleStore.Proofs.Files.Paths
import BundleStore.Proofs.Files.Trees
import Mathlib.Data.String.Basic

set_option autoImplicit false

/-! Where nothing stands in the way of an operation on files it does not fail: folders can be made
where no file is met, and a file can be read, written and removed where no folder has its name. What
an operation builds are the folders on the way and the file itself. -/

namespace BundleStore.FileTree

variable {tree before middle after : FileTree} {path folder other : FilePath} {bytes : List UInt8}
  {name : String}

/-- No file lies at the folder or on the way to it. -/
def Clear (tree : FileTree) (folder : FilePath) : Prop :=
  ∀ above, above <+: folder → ∀ bytes, tree.at? above ≠ some (.file bytes)

/-- On the way to a folder there are folders only. -/
theorem Closed.clear (closed : tree.Closed) (there : tree.at? folder = some .folder) :
    tree.Clear folder := by
  rintro above ⟨rest, rfl⟩ bytes found
  by_cases last : rest = []
  · rw [last, List.append_nil, found] at there
    cases there
  · rw [closed.above last there] at found
    cases found

theorem speakable_base (path : FilePath) : speakable (FilePath.base path) = speakable path := by
  induction path with
  | nil => rfl
  | cons name rest ih =>
      rw [← List.singleton_append, FilePath.base, List.filter_append, speakable_append,
        speakable_append, ← FilePath.base, ← FilePath.base, ih]
      by_cases dot : name = "."
      · rw [dot]
        rfl
      · rw [FilePath.base_of_undotted (by simpa using Ne.symm dot)]

/-- A character takes four bytes at most. -/
theorem longName_ofList {chars : List Char} (short : 4 * chars.length ≤ nameLimit) :
    longName (String.ofList chars) = false := by
  have most : String.utf8Len chars ≤ 4 * chars.length := by
    clear short
    induction chars with
    | nil => exact Nat.le_refl 0
    | cons char rest ih =>
        have bound := char.utf8Size_le_four
        rw [String.utf8Len_cons, List.length_cons]
        omega
  rw [longName, String.utf8ByteSize_ofList, decide_eq_false_iff_not]
  omega

theorem base_cons_of_ne {rest : FilePath} (notDot : name ≠ ".") :
    FilePath.base (name :: rest) = name :: FilePath.base rest :=
  List.filter_cons_of_pos (by simpa using notDot)

/-! ### Making folders -/

theorem makeBelow_ok (closed : tree.Closed) {here rest : FilePath}
    (inside : tree.at? here = some .folder)
    (short : rest.all (fun name => !longName name) = true)
    (clear : tree.Clear (here ++ FilePath.base rest)) : (tree.makeBelow here rest).1 = .ok () := by
  induction rest generalizing tree here with
  | nil => rfl
  | cons name rest ih =>
      rw [List.all_cons, Bool.and_eq_true, Bool.not_eq_true'] at short
      obtain ⟨fits, later⟩ := short
      rw [makeBelow]
      by_cases dot : name = "."
      · rw [if_pos dot]
        refine ih closed inside later ?_
        rw [dot] at clear
        exact clear
      · rw [base_cons_of_ne dot, List.append_cons] at clear
        rw [if_neg dot, fits, if_neg Bool.false_ne_true, ← at?_below]
        cases found : tree.at? (here ++ [name]) with
        | some node =>
            cases node with
            | file held => exact absurd found (clear _ (List.prefix_append ..) held)
            | folder => exact ih closed found later clear
        | none =>
            have placed : here ++ [name] ≠ [] := by simp
            refine ih (closed.insert inside (Or.inl rfl)) (by rw [at?_insert placed, if_pos rfl])
              later (fun above way bytes => ?_)
            rw [at?_insert placed]
            split
            · simp
            · exact clear above way bytes

theorem makeBelow_made {here rest : FilePath} (inside : tree.at? here = some .folder)
    (made : tree.makeBelow here rest = (.ok (), after)) :
    rest.all (fun name => !longName name) = true ∧
      after.at? (here ++ FilePath.base rest) = some .folder := by
  induction rest generalizing tree here with
  | nil =>
      rw [makeBelow] at made
      cases made
      rw [FilePath.base, List.filter_nil, List.append_nil]
      exact ⟨rfl, inside⟩
  | cons name rest ih =>
      rw [makeBelow] at made
      by_cases dot : name = "."
      · rw [if_pos dot] at made
        rw [dot]
        exact ih inside made
      · rw [if_neg dot] at made
        rw [base_cons_of_ne dot, List.append_cons, List.all_cons]
        split at made
        · cases made
        · rename_i fits
          rw [Bool.not_eq_true] at fits
          rw [fits]
          rw [← at?_below] at made
          split at made
          · rename_i found
            exact ih found made
          · cases made
          · refine ih ?_ made
            rw [at?_insert (by simp), if_pos rfl]

theorem makeFolders_made (made : tree.makeFolders path = (.ok (), after)) :
    speakable path = true ∧ after.at? (FilePath.base path) = some .folder := by
  rw [makeFolders] at made
  split at made
  · cases made
  · rename_i clean
    obtain ⟨short, there⟩ := makeBelow_made at?_top made
    refine ⟨?_, there⟩
    rw [speakable, Bool.not_eq_true] at *
    rw [clean, short]
    rfl

theorem makeFolders_ok (closed : tree.Closed) (spoken : speakable path = true)
    (clear : tree.Clear (FilePath.base path)) : (tree.makeFolders path).1 = .ok () := by
  rw [speakable, Bool.and_eq_true, Bool.not_eq_true'] at spoken
  rw [makeFolders, spoken.1, if_neg Bool.false_ne_true]
  exact makeBelow_ok closed at?_top spoken.2 clear

/-- A folder that is there is left as it is. -/
theorem makeBelow_there (closed : tree.Closed) {here rest : FilePath}
    (short : rest.all (fun name => !longName name) = true)
    (there : tree.at? (here ++ FilePath.base rest) = some .folder) :
    tree.makeBelow here rest = (.ok (), tree) := by
  induction rest generalizing here with
  | nil => rfl
  | cons name rest ih =>
      rw [List.all_cons, Bool.and_eq_true, Bool.not_eq_true'] at short
      obtain ⟨fits, later⟩ := short
      rw [makeBelow]
      by_cases dot : name = "."
      · rw [if_pos dot]
        rw [dot] at there
        exact ih later there
      · rw [base_cons_of_ne dot, List.append_cons] at there
        have first : tree.at? (here ++ [name]) = some .folder := by
          by_cases last : FilePath.base rest = []
          · rw [last, List.append_nil] at there
            exact there
          · exact closed.above last there
        rw [if_neg dot, fits, if_neg Bool.false_ne_true, ← at?_below, first]
        exact ih later there

theorem makeFolders_there (closed : tree.Closed) (spoken : speakable path = true)
    (there : tree.at? (FilePath.base path) = some .folder) :
    tree.makeFolders path = (.ok (), tree) := by
  rw [speakable, Bool.and_eq_true, Bool.not_eq_true'] at spoken
  rw [makeFolders, spoken.1, if_neg Bool.false_ne_true]
  exact makeBelow_there closed spoken.2 there

/-! ### What is new -/

/-- Nothing is new but files and folders in the places named; no folder is lost. -/
structure Builds (files folders : FilePath → Prop) (before after : FileTree) : Prop where
  closed : after.Closed
  kept : ∀ path, before.at? path = some .folder → after.at? path = some .folder
  files : ∀ path bytes, after.at? path = some (.file bytes) →
    before.at? path = some (.file bytes) ∨ files path
  folders : ∀ path, after.at? path = some .folder → before.at? path = some .folder ∨ folders path

theorem makeFolders_builds (closed : tree.Closed) (path : FilePath) :
    Builds (fun _ => False) (· <+: FilePath.base path) tree (tree.makeFolders path).2 := by
  have grown := makeFolders_grown closed path
  refine ⟨grown.closed, grown.folders, fun other bytes found => ?_, fun other found => ?_⟩
  · exact Or.inl ((grown.files other bytes).mp found)
  · by_cases way : other <+: FilePath.base path
    · exact Or.inr way
    · left
      cases found' : tree.at? other with
      | none =>
          rw [makeFolders_within found' way] at found
          cases found
      | some node =>
          cases node with
          | folder => rfl
          | file held =>
              rw [(grown.files other held).mpr found'] at found
              cases found

/-- A file comes to lie in a folder. -/
theorem Closed.builds_file (closed : tree.Closed) (inside : tree.at? folder = some .folder)
    (free : tree.at? (folder ++ [name]) ≠ some .folder) :
    Builds (· = folder ++ [name]) (fun _ => False) tree
      ⟨tree.nodes.insert (folder ++ [name]) (.file bytes)⟩ := by
  have placed : folder ++ [name] ≠ [] := by simp
  refine ⟨closed.insert inside (Or.inr free), fun other found => ?_, fun other held found => ?_,
    fun other found => ?_⟩
  · rw [at?_insert placed, if_neg]
    · exact found
    · rintro rfl
      exact free found
  · rw [at?_insert placed] at found
    split at found
    · rename_i same
      exact Or.inr same
    · exact Or.inl found
  · rw [at?_insert placed] at found
    split at found
    · cases found
    · exact Or.inl found

theorem Builds.trans {files folders more further : FilePath → Prop}
    (early : Builds files folders before middle) (late : Builds more further middle after) :
    Builds (fun path => files path ∨ more path) (fun path => folders path ∨ further path)
      before after := by
  refine ⟨late.closed, fun path found => late.kept path (early.kept path found),
    fun path bytes found => ?_, fun path found => ?_⟩
  · rcases late.files path bytes found with there | new
    · exact (early.files path bytes there).imp_right Or.inl
    · exact Or.inr (Or.inr new)
  · rcases late.folders path found with there | new
    · exact (early.folders path there).imp_right Or.inl
    · exact Or.inr (Or.inr new)

theorem remove_builds (closed : tree.Closed) (undotted : "." ∉ path)
    (removed : tree.remove path = .ok after) :
    Builds (fun _ => False) (fun _ => False) tree after := by
  rw [remove] at removed
  split at removed
  · cases removed
  · cases removed
  · rename_i held lies
    cases removed
    have there := ((find_ok closed undotted).mp lies).2
    have placed : path ≠ [] := by
      rintro rfl
      cases there
    refine ⟨closed.erase there, fun other found => ?_, fun other bytes found => ?_,
      fun other found => ?_⟩
    · rw [at?_erase placed, if_neg]
      · exact found
      · rintro rfl
        rw [there] at found
        cases found
    · rw [at?_erase placed] at found
      split at found
      · cases found
      · exact Or.inl found
    · rw [at?_erase placed] at found
      split at found
      · cases found
      · exact Or.inl found

/-! ### Files -/

/-- A file may be put there: its path can be spoken, no file lies on the way to its folder, and no
folder has its name. -/
structure Site (tree : FileTree) (folder : FilePath) (name : String) : Prop where
  undotted : "." ∉ folder ++ [name]
  spoken : speakable (folder ++ [name]) = true
  clear : tree.Clear folder
  free : tree.at? (folder ++ [name]) ≠ some .folder

theorem walk_absent {here rest : FilePath} (undotted : "." ∉ rest)
    (short : rest.all (fun name => !longName name) = true) (clear : tree.Clear (here ++ rest))
    (absent : tree.at? (here ++ rest) = none) :
    rest ≠ [] → tree.walk here .folder rest = .error .notFound := by
  induction rest generalizing here with
  | nil =>
      intro impossible
      exact absurd rfl impossible
  | cons name rest ih =>
      intro _further
      rw [List.mem_cons, not_or] at undotted
      obtain ⟨notDot, plain⟩ := undotted
      rw [List.all_cons, Bool.and_eq_true, Bool.not_eq_true'] at short
      rw [walk, if_neg (Ne.symm notDot), short.1, if_neg Bool.false_ne_true, ← at?_below]
      rw [List.append_cons] at clear absent
      cases found : tree.at? (here ++ [name]) with
      | none => rfl
      | some node =>
          cases node with
          | file held => exact absurd found (clear _ (List.prefix_append ..) held)
          | folder =>
              refine ih plain short.2 clear absent ?_
              rintro rfl
              rw [List.append_nil, found] at absent
              cases absent

theorem Site.find_absent (site : tree.Site folder name)
    (absent : tree.at? (folder ++ [name]) = none) :
    tree.find (folder ++ [name]) = .error .notFound := by
  obtain ⟨undotted, spoken, clear, _free⟩ := site
  rw [speakable, Bool.and_eq_true, Bool.not_eq_true'] at spoken
  rw [find, spoken.1, if_neg Bool.false_ne_true]
  refine walk_absent undotted spoken.2 (fun above way bytes found => ?_) absent (by simp)
  rcases List.prefix_concat_iff.mp way with whole | within
  · rw [whole, absent] at found
    cases found
  · exact clear above within bytes found

/-- The file is there, or nothing is. -/
theorem Site.cases (site : tree.Site folder name) (closed : tree.Closed) :
    (∃ bytes, tree.bytes? (folder ++ [name]) = some bytes ∧
        tree.find (folder ++ [name]) = .ok (.file bytes)) ∨
      (tree.bytes? (folder ++ [name]) = none ∧
        tree.find (folder ++ [name]) = .error .notFound) := by
  cases found : tree.at? (folder ++ [name]) with
  | none =>
      have missing := site.find_absent found
      refine Or.inr ⟨?_, missing⟩
      rw [bytes?, read, missing]
      rfl
  | some node =>
      cases node with
      | folder => exact absurd found site.free
      | file bytes =>
          exact Or.inl ⟨bytes, (bytes?_eq_some closed site.undotted).mpr ⟨site.spoken, found⟩,
            (find_ok closed site.undotted).mpr ⟨site.spoken, found⟩⟩

theorem Site.has (site : tree.Site folder name) (closed : tree.Closed) :
    tree.has (folder ++ [name]) = (tree.bytes? (folder ++ [name])).isSome := by
  rw [FileTree.has]
  rcases site.cases closed with ⟨bytes, there, found⟩ | ⟨none, missing⟩
  · rw [found, there]
    rfl
  · rw [missing, none]
    rfl

/-- Folders made on the way to it leave the site as it is. -/
theorem Site.builds (site : tree.Site folder name)
    (builds : Builds (fun _ => False) (· <+: folder) tree after) : after.Site folder name := by
  obtain ⟨undotted, spoken, clear, free⟩ := site
  refine ⟨undotted, spoken, fun above way bytes found => ?_, fun found => ?_⟩
  · exact clear above way bytes ((builds.files above bytes found).resolve_right id)
  · rcases builds.folders _ found with there | way
    · exact free there
    · have longer := way.length_le
      rw [List.length_append, List.length_singleton] at longer
      omega

theorem Site.replace (site : tree.Site folder name) (closed : tree.Closed)
    (inside : tree.at? folder = some .folder) :
    tree.replace folder (folder ++ [name]) bytes =
      .ok ⟨tree.nodes.insert (folder ++ [name]) (.file bytes)⟩ := by
  have front : "." ∉ folder := fun member => site.undotted (List.mem_append_left _ member)
  have notDot : name ≠ "." := by
    rintro rfl
    exact site.undotted (List.mem_append_right _ (List.mem_singleton_self _))
  have spoken := site.spoken
  rw [speakable_append, Bool.and_eq_true] at spoken
  have whole : (folder ++ [name]).filter (· ≠ ".") = folder ++ [name] :=
    FilePath.base_of_undotted site.undotted
  have standing : tree.find folder = .ok .folder := (find_ok closed front).mpr ⟨spoken.1, inside⟩
  rw [FileTree.replace, standing]
  rcases site.cases closed with ⟨held, _there, found⟩ | ⟨_none, missing⟩
  · rw [found]
    dsimp only
    rw [whole]
  · rw [missing]
    dsimp only
    rw [List.getLast?_append, List.getLast?_singleton, Option.some_or, if_neg (by simpa), whole]

theorem parent_concat (undotted : "." ∉ folder ++ [name]) :
    FilePath.parent (folder ++ [name]) = folder := by
  rw [FilePath.parent, ← FilePath.base, FilePath.base_of_undotted undotted, List.dropLast_concat]

theorem Site.folders (site : tree.Site folder name) (closed : tree.Closed) :
    (tree.makeFolders folder).1 = .ok () ∧
      (tree.makeFolders folder).2.at? folder = some .folder ∧
      Builds (fun _ => False) (· <+: folder) tree (tree.makeFolders folder).2 := by
  have front : "." ∉ folder := fun member => site.undotted (List.mem_append_left _ member)
  have spoken := site.spoken
  rw [speakable_append, Bool.and_eq_true] at spoken
  have builds := makeFolders_builds closed folder
  have clear := site.clear
  rw [← FilePath.base_of_undotted front] at clear
  have made := makeFolders_ok closed spoken.1 clear
  have there := (makeFolders_made (Prod.ext made rfl)).2
  rw [FilePath.base_of_undotted front] at builds there
  exact ⟨made, there, builds⟩

theorem Site.write (site : tree.Site folder name) (closed : tree.Closed) (bytes : List UInt8) :
    (tree.write (folder ++ [name]) bytes).1 = .ok () ∧
      Builds (· = folder ++ [name]) (· <+: folder) tree
        (tree.write (folder ++ [name]) bytes).2 := by
  obtain ⟨made, there, builds⟩ := site.folders closed
  rw [FileTree.write, parent_concat site.undotted]
  cases folders : tree.makeFolders folder with
  | mk result middle =>
      rw [folders] at made there builds
      obtain rfl := made
      have still := site.builds builds
      have placed : Builds (· = folder ++ [name]) (fun _ => False) middle
          ⟨middle.nodes.insert (folder ++ [name]) (.file bytes)⟩ :=
        builds.closed.builds_file there still.free
      have further := builds.trans placed
      dsimp only
      rw [still.replace builds.closed there]
      exact ⟨rfl, further.closed, further.kept, by simpa using further.files,
        by simpa using further.folders⟩

/-! ### A file in the place of another -/

section

variable {place : FilePath} {old : List UInt8}

theorem walk_replaced (held : tree.nodes.find? place = some (.file old)) {here rest : FilePath}
    {node : FileNode} (aside : here ++ FilePath.base rest ≠ place) :
    (FileTree.mk (tree.nodes.insert place (.file bytes))).walk here node rest =
      tree.walk here node rest := by
  induction rest generalizing here node with
  | nil => rfl
  | cons name rest ih =>
      cases node with
      | file _held => rfl
      | folder =>
          rw [walk, walk]
          by_cases dot : name = "."
          · rw [if_pos dot, if_pos dot]
            rw [dot] at aside
            exact ih aside
          · rw [base_cons_of_ne dot, List.append_cons] at aside
            rw [if_neg dot, if_neg dot]
            split
            · rfl
            · by_cases same : here ++ [name] = place
              · -- Both walks come to the file, and neither can go on.
                rw [same, SortedMap.find?_insert_self, held]
                cases rest with
                | nil =>
                    rw [show FilePath.base [] = [] from rfl, List.append_nil] at aside
                    exact absurd same aside
                | cons next later => rfl
              · rw [SortedMap.find?_insert_of_ne _ same]
                cases tree.nodes.find? (here ++ [name]) with
                | none => rfl
                | some next => exact ih aside

/-- All other paths lead where they led. -/
theorem find_replaced (held : tree.nodes.find? place = some (.file old))
    (aside : FilePath.base path ≠ place) :
    (FileTree.mk (tree.nodes.insert place (.file bytes))).find path = tree.find path := by
  rw [find, find, walk_replaced held aside]

/-- A file that can be read can be written. -/
theorem write_over (closed : tree.Closed) (undotted : "." ∉ path) (read : tree.read path = .ok old)
    (bytes : List UInt8) :
    tree.nodes.find? path = some (.file old) ∧
      tree.write path bytes = (.ok (), ⟨tree.nodes.insert path (.file bytes)⟩) := by
  obtain ⟨spoken, there⟩ := (read_ok closed undotted).mp read
  rcases path.eq_nil_or_concat with rfl | ⟨folder, name, rfl⟩
  · cases there
  · rw [List.concat_eq_append] at *
    have inside := closed folder name _ there
    have front : "." ∉ folder := fun member => undotted (List.mem_append_left _ member)
    have above := spoken
    rw [speakable_append, Bool.and_eq_true] at above
    have opens := (find_ok closed front).mpr ⟨above.1, inside⟩
    have found := (find_ok closed undotted).mpr ⟨spoken, there⟩
    have made := makeFolders_there closed above.1 (by rwa [FilePath.base_of_undotted front])
    refine ⟨at?_below.symm.trans there, ?_⟩
    rw [write, parent_concat undotted, made]
    dsimp only
    rw [replace, opens]
    dsimp only
    rw [found]
    dsimp only
    rw [← FilePath.base, FilePath.base_of_undotted undotted]

end

end BundleStore.FileTree
