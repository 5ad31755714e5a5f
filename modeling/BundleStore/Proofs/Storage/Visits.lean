import BundleStore.Proofs.Record.Lengths
import BundleStore.Proofs.Storage.Counterparts
import BundleStore.Proofs.Storage.Inspections

set_option autoImplicit false

/-! The consistency checks of storage in files and of storage in memory, on counterparts: they visit
the same nodes in the same order, report the same problems, and mend the same bundles. Each has a
bound of its own on the number of visits, and both are large enough: a node is pending because it was
asked for or because a record that is visited once has an entry for it. -/

namespace BundleStore

/-! ### How many visits there can be -/

namespace SortedMap

variable {κ α : Type} [Ord κ]

/-- What the entries weigh whose keys are not among these. -/
def weightWithout (map : SortedMap κ α) (size : α → Nat) (among : κ → Bool) : Nat :=
  ((map.entries.filter (fun entry => !among entry.1)).map (fun entry => size entry.2)).sum

variable {map : SortedMap κ α} {size : α → Nat} {fewer among : κ → Bool} {key : κ} {value : α}

theorem weightWithout_le (wider : ∀ key, fewer key = true → among key = true) :
    map.weightWithout size among ≤ map.weightWithout size fewer := by
  refine sum_map_le_of_sublist _ (List.monotone_filter_right _ (fun entry left => ?_))
  rw [Bool.not_eq_true', Bool.eq_false_iff] at left ⊢
  exact fun before => left (wider entry.1 before)

/-- An entry is taken off what is left. -/
theorem weightWithout_take [Std.TransOrd κ] [Std.LawfulEqOrd κ] (size : α → Nat)
    (found : map.find? key = some value)
    (wider : ∀ key, fewer key = true → among key = true) (left : fewer key = false)
    (taken : among key = true) :
    size value + map.weightWithout size among ≤ map.weightWithout size fewer := by
  have distinct := map.entries_nodup.filter (fun entry => !among entry.1)
  change (((key, value) :: _).map (fun entry : κ × α => size entry.2)).sum ≤ _
  refine sum_map_le_of_subset _ (List.nodup_cons.mpr ⟨fun member => ?_, distinct⟩) ?_
  · have there := (List.mem_filter.mp member).2
    rw [taken] at there
    cases there
  · intro entry member
    rcases List.mem_cons.mp member with rfl | later
    · refine List.mem_filter.mpr ⟨find?_eq_some.mp found, ?_⟩
      rw [left]
      rfl
    · obtain ⟨listed, other⟩ := List.mem_filter.mp later
      refine List.mem_filter.mpr ⟨listed, ?_⟩
      rw [Bool.not_eq_true', Bool.eq_false_iff] at other ⊢
      exact fun before => other (wider entry.1 before)

/-- What becomes of an entry that has been taken off does not count. -/
theorem weightWithout_insert [Std.TransOrd κ] [Std.LawfulEqOrd κ] (map : SortedMap κ α)
    (size : α → Nat) (value : α) (taken : among key = true) :
    (map.insert key value).weightWithout size among = map.weightWithout size among := by
  have dropped : (!among key) = false := by
    rw [taken]
    rfl
  exact congrArg (fun list => (list.map (fun entry : κ × α => size entry.2)).sum) (filter_place (fun key => !among key) dropped value map.entries)

theorem weightWithout_le_sum (map : SortedMap κ α) (size : α → Nat) (among : κ → Bool) :
    map.weightWithout size among ≤ (map.values.map size).sum := by
  rw [values, List.map_map]
  exact sum_map_le_of_sublist _ List.filter_sublist

end SortedMap

namespace MemoryStorage

variable {memory : MemoryStorage} {seen : SortedSet NodeId} {id : NodeId} {bytes : List UInt8}

/-- What the records of the bundles that have not been visited weigh. -/
def unvisited (memory : MemoryStorage) (seen : SortedSet NodeId) : Nat :=
  memory.bundles.weightWithout List.length (SortedMap.contains seen)

theorem contains_add (seen : SortedSet NodeId) (id wanted : NodeId) :
    SortedMap.contains (SortedSet.add seen id) wanted = true ↔
      wanted = id ∨ SortedMap.contains seen wanted = true :=
  SortedMap.contains_insert seen id wanted ()

theorem unvisited_add_le (memory : MemoryStorage) (seen : SortedSet NodeId) (id : NodeId) :
    memory.unvisited (SortedSet.add seen id) ≤ memory.unvisited seen :=
  SortedMap.weightWithout_le (fun _key before => (contains_add seen id _).mpr (Or.inr before))

/-- A visit takes the record of the node off what is left. -/
theorem unvisited_add (found : memory.bundles.find? id = some bytes)
    (unseen : SortedMap.contains seen id = false) :
    bytes.length + memory.unvisited (SortedSet.add seen id) ≤ memory.unvisited seen :=
  SortedMap.weightWithout_take List.length found
    (fun _key before => (contains_add seen id _).mpr (Or.inr before)) unseen
    ((contains_add seen id id).mpr (Or.inl rfl))

/-- What becomes of a record that has been visited does not count. -/
theorem unvisited_insert (memory : MemoryStorage) (bytes : List UInt8)
    (visited : SortedMap.contains seen id = true) :
    unvisited { memory with bundles := memory.bundles.insert id bytes } seen =
      memory.unvisited seen :=
  SortedMap.weightWithout_insert memory.bundles List.length bytes visited

theorem unvisited_le_sum (memory : MemoryStorage) (seen : SortedSet NodeId) :
    memory.unvisited seen ≤ (memory.bundles.values.map List.length).sum :=
  memory.bundles.weightWithout_le_sum List.length (SortedMap.contains seen)

theorem unvisited_lt_visitBound (memory : MemoryStorage) (ids : List NodeId) :
    ids.length + memory.unvisited SortedMap.empty < memory.visitBound ids := by
  have left := memory.unvisited_le_sum SortedMap.empty
  rw [visitBound, foldr_eq_sum_map List.length]
  omega

end MemoryStorage

/-! ### The checks -/

namespace FileStorage

/-- A check of storage in files fetches each blob. -/
def inspection : Inspection FileStorage where
  load := loadBundle
  stored storage id := storage.tree.has (storage.bundlePath id)
  tolerant := true
  blobFault? storage blob :=
    match storage.blobs.get blob with
    | .ok _ => none
    | .error cause => some cause
  store := storeBundle

theorem inspection_load : inspection.load = loadBundle := by
  unfold inspection
  dsimp only

theorem inspection_store : inspection.store = storeBundle := by
  unfold inspection
  dsimp only

theorem inspection_stored (storage : FileStorage) (id : NodeId) :
    inspection.stored storage id = storage.tree.has (storage.bundlePath id) := by
  unfold inspection
  dsimp only

theorem blobProblems_eq (storage : FileStorage) (id : NodeId) (bundle : Bundle) :
    inspection.blobProblems storage id bundle = storage.blobProblems id bundle := by
  refine List.filterMap_congr (fun blob _listed => ?_)
  unfold inspection
  dsimp only
  cases storage.blobs.get blob <;> rfl

/-- A check of storage in files inspects nodes whether or not it can read them. -/
theorem visit_follows (recursive mend : Bool) :
    inspection.Follows recursive mend (visit recursive mend) where
  done _bound _seen _problems _now := rfl
  again bound {id} pending {seen} problems now visited := by
    rw [visit]
    dsimp only
    rw [if_pos visited]
  first bound {id} pending {seen} problems {now further found later} unseen inspects := by
    rw [visit]
    dsimp only
    rw [if_neg (Bool.eq_false_iff.mp unseen)]
    cases inspects with
    | missing absent =>
        rw [inspection_load] at absent
        simp only [absent, List.nil_append]
    | unreadable failed bearable =>
        rw [inspection_load] at failed
        simp only [failed, List.nil_append]
    | @present bundle _ loaded written =>
        rw [inspection_load] at loaded
        rw [Inspection.writeBack, inspection_store] at written
        have passed := @Inspection.entries_eq_pass _ inspection now id bundle recursive mend pending
          problems
        rw [show inspection.stored now = _ from funext (inspection_stored now)] at passed
        simp only [loaded, passed, written, blobProblems_eq, List.append_assoc]

end FileStorage

namespace Counterparts

variable {files : FileStorage} {memory : MemoryStorage} {id : NodeId} {bundle : Bundle}
  {bytes : List UInt8} {seen : SortedSet NodeId}

theorem inspected (alike : Counterparts files memory) :
    FileStorage.inspection.stored files = MemoryStorage.inspection.stored memory := by
  funext id
  unfold FileStorage.inspection MemoryStorage.inspection
  dsimp only
  exact alike.stored id

theorem loads (alike : Counterparts files memory) (id : NodeId) :
    FileStorage.inspection.load files id = MemoryStorage.inspection.load memory id := by
  unfold FileStorage.inspection MemoryStorage.inspection
  dsimp only
  exact alike.loadBundle id

theorem storedChildren (alike : Counterparts files memory) (bundle : Bundle) :
    FileStorage.inspection.storedChildren files bundle =
      MemoryStorage.inspection.storedChildren memory bundle := by
  rw [Inspection.storedChildren, Inspection.storedChildren, alike.inspected]

theorem onward (alike : Counterparts files memory) (recursive : Bool) (bundle : Bundle) :
    FileStorage.inspection.onward recursive files bundle =
      MemoryStorage.inspection.onward recursive memory bundle := by
  rw [Inspection.onward, Inspection.onward, alike.storedChildren]

theorem problemsOf (alike : Counterparts files memory) (id : NodeId) (whole : bundle.blobs = []) :
    FileStorage.inspection.problemsOf files id bundle =
      MemoryStorage.inspection.problemsOf memory id bundle := by
  rw [Inspection.problemsOf, Inspection.problemsOf, Inspection.blobProblems, Inspection.blobProblems,
    whole, alike.inspected]
  rfl

/-- Both drop the same child entries, and neither fails. -/
theorem repair (alike : Counterparts files memory) (recorded : bundle.record = bundle)
    (found : memory.bundles.find? bundle.id = some bytes)
    (encoded : Record.encode Record.bundle bundle = .ok bytes) :
    (FileStorage.inspection.storePruned files bundle).1 = .ok () ∧
      (MemoryStorage.inspection.storePruned memory bundle).1 = .ok () ∧
      Counterparts (FileStorage.inspection.storePruned files bundle).2
        (MemoryStorage.inspection.storePruned memory bundle).2 ∧
      ∀ seen, SortedMap.contains seen bundle.id = true →
        (MemoryStorage.inspection.storePruned memory bundle).2.unvisited seen =
          memory.unvisited seen := by
  have held : memory.bundle? bundle.id = some bundle := by
    rw [MemoryStorage.bundle?, MemoryStorage.loadBundle_record found encoded, recorded]
    rfl
  have fewer : (MemoryStorage.inspection.storedChildren memory bundle).Sublist bundle.children :=
    List.filter_sublist
  rw [Inspection.storePruned, Inspection.storePruned, alike.storedChildren]
  split
  · exact ⟨rfl, rfl, alike, fun _seen _visited => rfl⟩
  · generalize MemoryStorage.inspection.storedChildren memory bundle = children at fewer
    obtain ⟨shorter, fits⟩ := MemoryStorage.encode_fewer fewer encoded
    have whole : bundle.blobs = [] := alike.whole _ _ held
    have fewerWhole : ({ bundle with children } : Bundle).blobs = [] := whole
    obtain ⟨same, still⟩ := alike.storeBundle fewerWhole
    have stored : memory.storeBundle { bundle with children } =
        (.ok (), { memory with bundles := memory.bundles.insert bundle.id shorter }) :=
      MemoryStorage.storeBundle_fits fits
    unfold FileStorage.inspection MemoryStorage.inspection
    dsimp only
    rw [stored] at same still ⊢
    exact ⟨same, rfl, still, fun _seen visited => memory.unvisited_insert shorter visited⟩

/-- A stored bundle is loaded as it was written. -/
theorem loaded (alike : Counterparts files memory)
    (found : memory.bundles.find? id = some bytes) : ∃ bundle : Bundle,
      bundle.id = id ∧ bundle.record = bundle ∧ bundle.blobs = [] ∧
      Record.encode Record.bundle bundle = .ok bytes ∧
      MemoryStorage.inspection.load memory id = .ok (some bundle) := by
  obtain ⟨bundle, named, recorded, encoded⟩ := alike.sound id bytes found
  have loaded := MemoryStorage.loadBundle_record found encoded
  rw [recorded] at loaded
  refine ⟨bundle, named, recorded, alike.whole id bundle ?_, encoded, ?_⟩
  · rw [MemoryStorage.bundle?, loaded]
    rfl
  · unfold MemoryStorage.inspection
    exact loaded

theorem absent (found : memory.bundles.find? id = none) :
    MemoryStorage.inspection.load memory id = .ok none := by
  unfold MemoryStorage.inspection
  exact MemoryStorage.loadBundle_absent found

/-- Both do the same with a node that they come to for the first time. What it adds to the nodes
pending has its place in what its record weighed. -/
theorem inspects (alike : Counterparts files memory) (recursive mend : Bool)
    (unseen : SortedMap.contains seen id = false) :
    ∃ further found filesAfter memoryAfter,
      FileStorage.inspection.Inspects recursive mend files id further found filesAfter ∧
      MemoryStorage.inspection.Inspects recursive mend memory id further found memoryAfter ∧
      Counterparts filesAfter memoryAfter ∧
      further.length + memoryAfter.unvisited (SortedSet.add seen id) ≤ memory.unvisited seen := by
  cases found : memory.bundles.find? id with
  | none =>
      have missing := absent found
      have fewer := memory.unvisited_add_le seen id
      exact ⟨[], _, files, memory, .missing ((alike.loads id).trans missing), .missing missing, alike,
        by rwa [List.length_nil, Nat.zero_add]⟩
  | some bytes =>
      obtain ⟨bundle, rfl, recorded, whole, encoded, present⟩ := alike.loaded found
      have loaded := (alike.loads bundle.id).trans present
      -- The record comes off what is left, and the children it adds are fewer than its bytes.
      have less := MemoryStorage.unvisited_add found unseen
      have fewer := MemoryStorage.inspection.length_onward_le recursive memory bundle
      have longer := Record.children_length_le_of_encode encoded
      have onFiles {later : FileStorage}
          (mended : (if mend then FileStorage.inspection.storePruned files bundle else (.ok (), files)) =
            (.ok (), later)) :
          FileStorage.inspection.Inspects recursive mend files bundle.id
            (MemoryStorage.inspection.onward recursive memory bundle)
            (MemoryStorage.inspection.problemsOf memory bundle.id bundle) later := by
        rw [← alike.onward, ← alike.problemsOf bundle.id whole]
        exact .mends loaded mended
      cases mend with
      | false => exact ⟨_, _, files, memory, onFiles rfl, .mends present rfl, alike, by omega⟩
      | true =>
          obtain ⟨first, second, still, left⟩ := alike.repair recorded found encoded
          have counted := left (SortedSet.add seen bundle.id)
            ((MemoryStorage.contains_add seen _ _).mpr (Or.inl rfl))
          exact ⟨_, _, (FileStorage.inspection.storePruned files bundle).2,
            (MemoryStorage.inspection.storePruned memory bundle).2, onFiles (Prod.ext first rfl),
            .mends present (Prod.ext second rfl), still, by omega⟩

/-- With bounds that are large enough the visits go alike to their end. The nodes pending and the
records not visited weigh less after each visit: it takes a node off, and its record for the
children. -/
theorem visit (alike : Counterparts files memory) (recursive mend : Bool) {bound other : Nat}
    (visited : Visit)
    (enough : visited.pending.length + memory.unvisited visited.seen < bound)
    (ample : visited.pending.length + memory.unvisited visited.seen < other) :
    (FileStorage.visit recursive mend bound visited files).1 =
        (MemoryStorage.visit recursive mend other visited memory).1 ∧
      Counterparts (FileStorage.visit recursive mend bound visited files).2
        (MemoryStorage.visit recursive mend other visited memory).2 := by
  induction bound generalizing other visited files memory with
  | zero => omega
  | succ bound ih =>
      obtain ⟨other, rfl⟩ := Nat.exists_eq_add_one_of_ne_zero (Nat.ne_zero_of_lt ample)
      obtain ⟨pending, seen, problems⟩ := visited
      cases pending with
      | nil => exact ⟨rfl, alike⟩
      | cons id pending =>
          simp only [List.length_cons] at enough ample
          cases known : SortedMap.contains seen id with
          | true =>
              rw [(FileStorage.visit_follows recursive mend).again _ _ _ _ known,
                (MemoryStorage.visit_follows recursive mend).again _ _ _ _ known]
              exact ih alike _ (by dsimp only; omega) (by dsimp only; omega)
          | false =>
              obtain ⟨further, found, filesAfter, memoryAfter, first, second, still, less⟩ :=
                alike.inspects recursive mend known
              rw [(FileStorage.visit_follows recursive mend).first _ _ _ known first,
                (MemoryStorage.visit_follows recursive mend).first _ _ _ known second]
              exact ih still _ (by simp only [List.length_append]; omega)
                (by simp only [List.length_append]; omega)

/-- The checks find the same, and mend the same. -/
theorem check (alike : Counterparts files memory) (ids : List NodeId) (recursive repair : Bool) :
    (files.check ids recursive repair).1 = (memory.check ids recursive repair).1 ∧
      (files.check ids recursive repair).2.2 = [] ∧
      Counterparts (files.check ids recursive repair).2.1
        (memory.check ids recursive repair).2 := by
  have asked : (if ids.isEmpty then files.ids else (.ok ids, [])) =
      (.ok (if ids.isEmpty then memory.ids else ids), []) := by
    rw [alike.ids]
    split <;> rfl
  rw [FileStorage.check, MemoryStorage.check, asked]
  dsimp only
  generalize (if ids.isEmpty then memory.ids else ids) = wanted
  have records := alike.shelved.sum_le alike.bundles
  have left := memory.unvisited_le_sum SortedMap.empty
  have ample := memory.unvisited_lt_visitBound wanted
  rw [← List.length_reverse] at ample
  have enough : wanted.reverse.length + memory.unvisited SortedMap.empty <
      files.visitBound wanted := by
    rw [FileStorage.visitBound, List.length_reverse, foldr_eq_sum_map FileNode.size]
    omega
  obtain ⟨same, still⟩ :=
    alike.visit recursive repair ⟨wanted.reverse, SortedMap.empty, []⟩ enough ample
  exact ⟨same, rfl, still⟩

end Counterparts

end BundleStore
