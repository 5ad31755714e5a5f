import BundleStore.Files.Tree
import BundleStore.Proofs.SortedMap

set_option autoImplicit false

/-! What the operations on a tree of files do to the bytes that can be read, at the path they are
about and at all others. Folders that are made on the way change nothing that could be read. -/

namespace BundleStore.FileTree

/-- What lies at the path; at the top there is a folder. -/
def at? (tree : FileTree) (path : FilePath) : Option FileNode :=
  if path = [] then some .folder else tree.nodes.find? path

/-- Everything lies in a folder. -/
def Closed (tree : FileTree) : Prop :=
  ∀ folder name node, tree.at? (folder ++ [name]) = some node → tree.at? folder = some .folder

/-- The bytes of the file at the path, if there is one that can be read. -/
def bytes? (tree : FileTree) (path : FilePath) : Option (List UInt8) := (tree.read path).toOption

/-- Every name on the path could be one. -/
def speakable (path : FilePath) : Bool := !holdsNul path && path.all (fun name => !longName name)

variable {tree before after : FileTree} {path folder : FilePath} {bytes : List UInt8}
  {node : FileNode} {name : String}

@[simp]
theorem at?_top : tree.at? [] = some .folder := rfl

theorem at?_of_ne (some : path ≠ []) : tree.at? path = tree.nodes.find? path := if_neg some

theorem at?_below : tree.at? (folder ++ [name]) = tree.nodes.find? (folder ++ [name]) :=
  at?_of_ne (by simp)

theorem empty_closed : empty.Closed := by
  intro folder name node found
  rw [at?_below] at found
  cases found

theorem Closed.above (closed : tree.Closed) {rest : FilePath} (further : rest ≠ [])
    (found : tree.at? (folder ++ rest) = some node) : tree.at? folder = some .folder := by
  induction rest generalizing folder with
  | nil => exact absurd rfl further
  | cons name rest ih =>
      rw [List.append_cons] at found
      by_cases last : rest = []
      · rw [last, List.append_nil] at found
        exact closed folder name node found
      · exact closed folder name .folder (ih last found)

theorem speakable_append {rest : FilePath} :
    speakable (path ++ rest) = (speakable path && speakable rest) := by
  unfold speakable holdsNul
  rw [List.any_append, List.all_append, Bool.not_or]
  ac_rfl

/-! ### Looking -/

theorem walk_ok (closed : tree.Closed) {here rest : FilePath} {start : FileNode}
    (stands : tree.at? here = some start) (undotted : "." ∉ rest) :
    tree.walk here start rest = .ok node ↔
      rest.all (fun name => !longName name) = true ∧ tree.at? (here ++ rest) = some node := by
  induction rest generalizing here start with
  | nil =>
      rw [walk, List.append_nil, stands]
      simp
  | cons name rest ih =>
      rw [List.mem_cons, not_or] at undotted
      obtain ⟨notDot, later⟩ := undotted
      cases start with
      | file held =>
          rw [walk]
          refine iff_of_false (fun impossible => by cases impossible) (fun met => ?_)
          have above := closed.above (List.cons_ne_nil name rest) met.2
          rw [stands] at above
          cases above
      | folder =>
          rw [List.append_cons, walk, if_neg (Ne.symm notDot), List.all_cons]
          cases long : longName name with
          | true => simp
          | false =>
              rw [← at?_below]
              cases found : tree.at? (here ++ [name]) with
              | none =>
                  refine iff_of_false (fun impossible => by cases impossible) (fun met => ?_)
                  have there := met.2
                  by_cases last : rest = []
                  · rw [last, List.append_nil, found] at there
                    cases there
                  · rw [closed.above last there] at found
                    cases found
              | some next => simpa using ih found later

theorem find_ok (closed : tree.Closed) (undotted : "." ∉ path) :
    tree.find path = .ok node ↔ speakable path = true ∧ tree.at? path = some node := by
  unfold find speakable
  cases holdsNul path with
  | true => simp
  | false =>
      have whole : tree.walk [] .folder path = .ok node ↔ _ := walk_ok closed at?_top undotted
      simpa using whole

theorem read_ok (closed : tree.Closed) (undotted : "." ∉ path) :
    tree.read path = .ok bytes ↔ speakable path = true ∧ tree.at? path = some (.file bytes) := by
  rw [← find_ok closed undotted, read]
  cases tree.find path with
  | error cause => simp
  | ok node => cases node <;> simp

theorem bytes?_eq_some (closed : tree.Closed) (undotted : "." ∉ path) :
    tree.bytes? path = some bytes ↔ speakable path = true ∧ tree.at? path = some (.file bytes) := by
  rw [← read_ok closed undotted, bytes?]
  cases tree.read path <;> simp [Except.toOption]

theorem has_of_absent (closed : tree.Closed) (undotted : "." ∉ path) (absent : tree.at? path = none) :
    tree.has path = false := by
  unfold has
  cases found : tree.find path with
  | error cause => rfl
  | ok node =>
      rw [((find_ok closed undotted).mp found).2] at absent
      cases absent

theorem has_of_readable (readable : tree.bytes? path = some bytes) : tree.has path = true := by
  unfold bytes? read at readable
  unfold has
  cases found : tree.find path with
  | error cause =>
      rw [found] at readable
      cases readable
  | ok node => rfl

/-! ### Making folders -/

/-- The trees differ in folders only, which may have been made. -/
structure Grown (before after : FileTree) : Prop where
  closed : after.Closed
  files : ∀ path bytes, after.at? path = some (.file bytes) ↔ before.at? path = some (.file bytes)
  folders : ∀ path, before.at? path = some .folder → after.at? path = some .folder

theorem Grown.refl (closed : tree.Closed) : Grown tree tree :=
  ⟨closed, fun _path _bytes => Iff.rfl, fun _path found => found⟩

theorem Grown.trans {last : FileTree} (early : Grown before after) (late : Grown after last) :
    Grown before last :=
  ⟨late.closed, fun path bytes => (late.files path bytes).trans (early.files path bytes),
    fun path found => late.folders path (early.folders path found)⟩

/-- What lies at a path when a node has been put at another one. -/
theorem at?_insert (some : path ≠ []) (other : FilePath) :
    (FileTree.mk (tree.nodes.insert path node)).at? other =
      if other = path then Option.some node else tree.at? other := by
  unfold at?
  by_cases top : other = []
  · rw [if_pos top, if_pos top, if_neg (fun same => some (same.symm.trans top))]
  · rw [if_neg top, if_neg top]
    by_cases same : other = path
    · rw [if_pos same, same, SortedMap.find?_insert_self]
    · rw [if_neg same, SortedMap.find?_insert_of_ne _ same]

theorem at?_insert_of_ne {other : FilePath} (differs : other ≠ path) :
    (FileTree.mk (tree.nodes.insert path node)).at? other = tree.at? other := by
  unfold at?
  rw [SortedMap.find?_insert_of_ne _ differs]

/-- A node may be put into a folder unless another folder is there. -/
theorem Closed.insert (closed : tree.Closed) (inside : tree.at? folder = some .folder)
    (free : node = .folder ∨ tree.at? (folder ++ [name]) ≠ some .folder) :
    (FileTree.mk (tree.nodes.insert (folder ++ [name]) node)).Closed := by
  have placed : folder ++ [name] ≠ [] := by simp
  intro other last held found
  rw [at?_insert placed] at found ⊢
  have above : tree.at? other = some .folder := by
    split at found
    · rename_i same
      rw [(List.append_inj' same rfl).1]
      exact inside
    · exact closed other last held found
  split
  · rename_i same
    rcases free with rfl | free
    · rfl
    · exact absurd (same ▸ above) free
  · exact above

theorem makeBelow_grown (closed : tree.Closed) {here rest : FilePath}
    (inside : tree.at? here = some .folder) : Grown tree (tree.makeBelow here rest).2 := by
  induction rest generalizing tree here with
  | nil => exact Grown.refl closed
  | cons name rest ih =>
      rw [makeBelow]
      split
      · exact ih closed inside
      · split
        · exact Grown.refl closed
        · rw [← at?_below]
          cases found : tree.at? (here ++ [name]) with
          | some node =>
              cases node with
              | file held => exact Grown.refl closed
              | folder => exact ih closed found
          | none =>
              have placed : here ++ [name] ≠ [] := by simp
              have made : (FileTree.mk (tree.nodes.insert (here ++ [name]) .folder)).at?
                  (here ++ [name]) = some .folder := by rw [at?_insert placed, if_pos rfl]
              have stays : (FileTree.mk (tree.nodes.insert (here ++ [name]) .folder)).Closed :=
                closed.insert inside (Or.inl rfl)
              refine Grown.trans ⟨stays, fun path bytes => ?_, fun path there => ?_⟩ (ih stays made)
              · rw [at?_insert placed]
                split
                · rename_i same
                  rw [same, found]
                  simp
                · exact Iff.rfl
              · rw [at?_insert placed]
                split
                · rfl
                · exact there

theorem makeFolders_grown (closed : tree.Closed) (path : FilePath) :
    Grown tree (tree.makeFolders path).2 := by
  rw [makeFolders]
  split
  · exact Grown.refl closed
  · exact makeBelow_grown closed at?_top

/-- No folder is made but those on the way. -/
theorem makeBelow_within {here rest other : FilePath}
    (absent : tree.at? other = none) (aside : ¬ other <+: here ++ rest.filter (· ≠ ".")) :
    (tree.makeBelow here rest).2.at? other = none := by
  induction rest generalizing tree here with
  | nil => exact absent
  | cons name rest ih =>
      rw [makeBelow]
      split
      · rename_i dot
        exact ih absent (by simpa [dot] using aside)
      · rename_i notDot
        rw [List.filter_cons_of_pos (by simpa using notDot), List.append_cons] at aside
        split
        · exact absent
        · split
          · exact ih absent aside
          · exact absent
          · have differs : other ≠ here ++ [name] := by
              rintro rfl
              exact aside (List.prefix_append ..)
            apply ih _ aside
            rw [at?_insert (by simp), if_neg differs]
            exact absent

theorem makeFolders_within {other : FilePath} (absent : tree.at? other = none)
    (aside : ¬ other <+: path.filter (· ≠ ".")) : (tree.makeFolders path).2.at? other = none := by
  rw [makeFolders]
  split
  · exact absent
  · exact makeBelow_within absent (by simpa using aside)

theorem Grown.bytes? (grown : Grown before after) (closed : before.Closed) (undotted : "." ∉ path) :
    after.bytes? path = before.bytes? path := by
  apply Option.ext
  intro bytes
  rw [bytes?_eq_some grown.closed undotted, bytes?_eq_some closed undotted, grown.files]

/-! ### Files -/

/-- The tree has come to hold these bytes at the path, or none; nothing else that can be read is
different. -/
structure Sets (path : FilePath) (bytes : Option (List UInt8)) (before after : FileTree) : Prop where
  closed : after.Closed
  here : after.bytes? path = bytes
  others : ∀ other, "." ∉ other → other ≠ path → after.bytes? other = before.bytes? other

/-- Nothing that can be read is different. -/
structure Same (before after : FileTree) : Prop where
  closed : after.Closed
  bytes : ∀ path, "." ∉ path → after.bytes? path = before.bytes? path

theorem Grown.same (grown : Grown before after) (closed : before.Closed) : Same before after :=
  ⟨grown.closed, fun _path undotted => grown.bytes? closed undotted⟩

theorem Sets.after_same {middle : FileTree} {set : Option (List UInt8)}
    (sets : Sets path set middle after) (same : Same before middle) : Sets path set before after :=
  ⟨sets.closed, sets.here, fun other undotted differs =>
    (sets.others other undotted differs).trans (same.bytes other undotted)⟩

theorem walk_append {here front rest : FilePath} {start : FileNode} (undotted : "." ∉ front)
    (found : tree.walk here start front = .ok node) :
    tree.walk here start (front ++ rest) = tree.walk (here ++ front) node rest := by
  induction front generalizing here start with
  | nil =>
      rw [walk] at found
      cases found
      rw [List.nil_append, List.append_nil]
  | cons name front ih =>
      rw [List.mem_cons, not_or] at undotted
      obtain ⟨notDot, later⟩ := undotted
      rw [List.cons_append, List.append_cons]
      cases start with
      | file held =>
          rw [walk] at found
          cases found
      | folder =>
          rw [walk, if_neg (Ne.symm notDot)] at found ⊢
          split at found
          · cases found
          · rename_i short
            rw [if_neg short]
            split at found
            · cases found
            · exact ih later found

/-- What is not found in a folder is not there, though it could be. -/
theorem find_notFound (undotted : "." ∉ folder ++ [name]) (found : tree.find folder = .ok .folder)
    (missing : tree.find (folder ++ [name]) = .error .notFound) :
    speakable [name] = true ∧ tree.at? (folder ++ [name]) = none := by
  rw [List.mem_append, List.mem_singleton, not_or] at undotted
  obtain ⟨front, notDot⟩ := undotted
  unfold find at found missing
  split at missing
  · cases missing
  · rename_i clean
    have nul : holdsNul (folder ++ [name]) = (holdsNul folder || holdsNul [name]) := List.any_append
    rw [nul, Bool.not_eq_true, Bool.or_eq_false_iff] at clean
    rw [if_neg (by rw [clean.1]; decide)] at found
    rw [walk_append front found, List.nil_append, walk, if_neg (Ne.symm notDot), ← at?_below]
      at missing
    split at missing
    · cases missing
    · rename_i short
      split at missing
      · rename_i absent
        refine ⟨?_, absent⟩
        unfold speakable
        simp [clean.2, short]
      · cases missing

/-- A file that has been put into its folder is what can be read there. -/
theorem Closed.sets_file (closed : tree.Closed) (inside : tree.at? folder = some .folder)
    (spoken : speakable (folder ++ [name]) = true) (undotted : "." ∉ folder ++ [name])
    (free : tree.at? (folder ++ [name]) ≠ some .folder) :
    Sets (folder ++ [name]) (some bytes) tree
      ⟨tree.nodes.insert (folder ++ [name]) (.file bytes)⟩ := by
  have placed : folder ++ [name] ≠ [] := by simp
  have stays : (FileTree.mk (tree.nodes.insert (folder ++ [name]) (.file bytes))).Closed :=
    closed.insert inside (Or.inr free)
  refine ⟨stays, ?_, fun other plain differs => ?_⟩
  · rw [bytes?_eq_some stays undotted, at?_insert placed, if_pos rfl]
    exact ⟨spoken, rfl⟩
  · apply Option.ext
    intro held
    rw [bytes?_eq_some stays plain, bytes?_eq_some closed plain, at?_insert placed, if_neg differs]

theorem replace_ok (closed : tree.Closed) (undotted : "." ∉ path)
    (replaced : tree.replace (FilePath.parent path) path bytes = .ok after) :
    Sets path (some bytes) tree after := by
  have whole : path.filter (· ≠ ".") = path :=
    List.filter_eq_self.mpr (fun name member => decide_eq_true (fun same => undotted (same ▸ member)))
  rw [replace, FilePath.parent, whole] at replaced
  rcases List.eq_nil_or_concat path with rfl | ⟨folder, name, rfl⟩
  · cases replaced
  · rw [List.concat_eq_append] at replaced undotted ⊢
    rw [List.dropLast_concat] at replaced
    have front : "." ∉ folder := fun member => undotted (List.mem_append_left _ member)
    split at replaced
    · cases replaced
    · cases replaced
    · rename_i found
      obtain ⟨spoken, inside⟩ := (find_ok closed front).mp found
      split at replaced
      · cases replaced
      · rename_i held there
        cases replaced
        obtain ⟨whole, stands⟩ := (find_ok closed undotted).mp there
        exact closed.sets_file inside whole undotted (by rw [stands]; simp)
      · rename_i missing
        obtain ⟨named, absent⟩ := find_notFound undotted found missing
        split at replaced
        · cases replaced
        · cases replaced
          refine closed.sets_file inside ?_ undotted (by rw [absent]; simp)
          rw [speakable_append, spoken, named]
          rfl
      · cases replaced

theorem write_ok (closed : tree.Closed) (undotted : "." ∉ path)
    (written : tree.write path bytes = (.ok (), after)) : Sets path (some bytes) tree after := by
  have grown := makeFolders_grown closed (FilePath.parent path)
  rw [write] at written
  split at written
  · cases written
  · rename_i middle made
    rw [made] at grown
    split at written
    · cases written
    · rename_i replaced
      cases written
      exact (replace_ok grown.closed undotted replaced).after_same (grown.same closed)

theorem write_error (closed : tree.Closed) {cause : IoError}
    (failed : tree.write path bytes = (.error cause, after)) : Same tree after := by
  have grown := makeFolders_grown closed (FilePath.parent path)
  rw [write] at failed
  split at failed
  · rename_i made
    rw [made] at grown
    cases failed
    exact grown.same closed
  · rename_i middle made
    rw [made] at grown
    split at failed
    · cases failed
      exact grown.same closed
    · cases failed

theorem Closed.write (closed : tree.Closed) (undotted : "." ∉ path) (bytes : List UInt8) :
    (tree.write path bytes).2.Closed := by
  cases wrote : tree.write path bytes with
  | mk result after =>
      cases result with
      | ok _unit => exact (write_ok closed undotted wrote).closed
      | error cause => exact (write_error closed wrote).closed

theorem remove_error {cause : IoError} (failed : tree.remove path = .error cause) :
    tree.bytes? path = none := by
  unfold bytes? read
  rw [remove] at failed
  split at failed
  · rename_i found
    rw [found]
    rfl
  · rename_i found
    rw [found]
    rfl
  · cases failed

theorem at?_erase (some : path ≠ []) (other : FilePath) :
    (FileTree.mk (tree.nodes.erase path)).at? other =
      if other = path then none else tree.at? other := by
  unfold at?
  by_cases top : other = []
  · rw [if_pos top, if_pos top, if_neg (fun same => some (same.symm.trans top))]
  · rw [if_neg top, if_neg top]
    by_cases same : other = path
    · rw [if_pos same, same, SortedMap.find?_erase_self]
    · rw [if_neg same, SortedMap.find?_erase_of_ne _ same]

theorem at?_erase_of_ne {other : FilePath} (differs : other ≠ path) :
    (FileTree.mk (tree.nodes.erase path)).at? other = tree.at? other := by
  unfold at?
  rw [SortedMap.find?_erase_of_ne _ differs]

theorem Closed.erase (closed : tree.Closed) (held : tree.at? path = some (.file bytes)) :
    (FileTree.mk (tree.nodes.erase path)).Closed := by
  have placed : path ≠ [] := by
    rintro rfl
    cases held
  intro folder name node found
  rw [at?_erase placed] at found ⊢
  split at found
  · cases found
  · have above := closed folder name node found
    rw [if_neg]
    · exact above
    · rintro rfl
      rw [held] at above
      cases above

theorem remove_ok (closed : tree.Closed) (undotted : "." ∉ path)
    (removed : tree.remove path = .ok after) :
    Sets path none tree after ∧ (tree.bytes? path).isSome = true := by
  rw [remove] at removed
  split at removed
  · cases removed
  · cases removed
  · rename_i held found
    cases removed
    obtain ⟨spoken, there⟩ := (find_ok closed undotted).mp found
    have placed : path ≠ [] := by
      rintro rfl
      cases there
    have stays := closed.erase there
    have readable := (bytes?_eq_some closed undotted).mpr ⟨spoken, there⟩
    refine ⟨⟨stays, ?_, fun other plain differs => ?_⟩, ?_⟩
    · rw [Option.eq_none_iff_forall_ne_some]
      intro bytes impossible
      have still := ((bytes?_eq_some stays undotted).mp impossible).2
      rw [at?_erase placed, if_pos rfl] at still
      cases still
    · apply Option.ext
      intro bytes
      rw [bytes?_eq_some stays plain, bytes?_eq_some closed plain, at?_erase placed, if_neg differs]
    · rw [readable]
      rfl

end BundleStore.FileTree
