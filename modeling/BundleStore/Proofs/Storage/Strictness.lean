import BundleStore.Proofs.Storage.Reports
import BundleStore.Proofs.Storage.Unreadable

set_option autoImplicit false

/-! What the two consistency checks make of a record that cannot be read, and of blobs. In memory such
a record ends the check with an error; in files it is a finding like any other, and the check goes on
to its end. Only the files are asked for the blobs of the bundles. -/

namespace BundleStore

namespace MemoryStorage

variable {storage : MemoryStorage} {recursive mend : Bool} {asked order : List NodeId}

theorem inspection_weighed : inspection.Weighed (fun _storage => True) unvisited where
  lighter := unvisited_add_le
  weighed {storage seen id bundle} _good loaded unseen := by
    have decoded : storage.loadBundle id = .ok (some bundle) := loaded
    rw [loadBundle] at decoded
    split at decoded
    · cases decoded
    · rename_i bytes found
      have less := unvisited_add found unseen
      cases read : Record.decode Record.bundle bytes id.text with
      | error cause =>
          rw [read] at decoded
          cases decoded
      | ok other =>
          rw [read] at decoded
          cases decoded
          have longer := Record.children_length_le read
          omega

/-- From here the check comes to its end if and only if it can read what it comes to. -/
theorem visit_ends_iff {bound : Nat} {visit : Visit}
    (progress : inspection.Progress recursive false asked storage storage visit order)
    (readable : ∀ id ∈ order, ∃ found, storage.loadBundle id = .ok found)
    (enough : visit.pending.length + storage.unvisited visit.seen < bound) :
    (∃ problems, (MemoryStorage.visit recursive false bound visit storage).1 = .ok problems) ↔
      ∀ id, inspection.Visits storage recursive asked id →
        ∃ found, storage.loadBundle id = .ok found := by
  induction bound generalizing visit order with
  | zero => omega
  | succ bound ih =>
      obtain ⟨pending, seen, problems⟩ := visit
      have follows := visit_follows recursive false
      cases pending with
      | nil =>
          refine iff_of_true ⟨problems, congrArg Prod.fst (follows.done bound seen problems storage)⟩
            (fun id visits => readable id ?_)
          exact (progress.sweep.visited id).mpr visits
      | cons id pending =>
          simp only [List.length_cons] at enough
          cases known : SortedMap.contains seen id with
          | true =>
              rw [follows.again _ _ _ _ known]
              exact ih (progress.pass known) readable (by dsimp only; omega)
          | false =>
              cases loaded : storage.loadBundle id with
              | error cause =>
                  refine iff_of_false (fun ends => ?_) (fun all => ?_)
                  · obtain ⟨reported, ends⟩ := ends
                    rw [MemoryStorage.visit] at ends
                    simp [known, loaded] at ends
                  · obtain ⟨found, read⟩ := all id (progress.reached id List.mem_cons_self)
                    rw [loaded] at read
                    cases read
              | ok found =>
                  obtain ⟨further, later, inspects, _good, onward, less⟩ :=
                    inspection_weighed.step (fun impossible => by cases impossible) trivial progress
                      known loaded
                  obtain rfl : later = storage := onward.kept rfl
                  rw [follows.first _ _ _ known inspects]
                  refine ih onward (fun other member => ?_)
                    (by simp only [List.length_append]; omega)
                  rcases List.mem_append.mp member with old | last
                  · exact readable other old
                  · exact ⟨found, List.mem_singleton.mp last ▸ loaded⟩

/-- A check that mends nothing gives a report if and only if every record that it comes to can be
read, whatever bytes the others hold. -/
theorem check_ends_iff (storage : MemoryStorage) (ids : List NodeId) (recursive : Bool) :
    (∃ problems, (storage.check ids recursive false).1 = .ok problems) ↔
      ∀ id, (Storage.memory storage).Visits recursive ids id →
        ∃ found, storage.loadBundle id = .ok found := by
  have enough := storage.unvisited_lt_visitBound ((Storage.memory storage).asked ids)
  rw [← List.length_reverse] at enough
  refine (visit_ends_iff (Inspection.Progress.begin inspection recursive false
    ((Storage.memory storage).asked ids) storage) (fun _id impossible => by cases impossible)
    enough).trans (forall_congr' fun id => ?_)
  rw [(Storage.shows_memory storage).visits]

end MemoryStorage

namespace FileStorage

variable {storage : FileStorage}

/-- What a check of storage in files says of a node: that its record is missing or cannot be read, or
which of its entries lead nowhere and which of its blobs cannot be fetched. -/
def lines (storage : FileStorage) (id : NodeId) : List Problem :=
  match storage.loadBundle id with
  | .ok none => [.missing id]
  | .error cause => [.unreadable id cause]
  | .ok (some bundle) =>
      (Storage.files storage).danglingLines id ++ storage.blobProblems id bundle

theorem findings_eq_lines (storage : FileStorage) (id : NodeId) :
    inspection.findings storage id = storage.lines id := by
  rw [Inspection.findings, inspection_load, lines]
  rcases loaded : storage.loadBundle id with cause | none | bundle
  · rfl
  · rfl
  · have held : (Storage.files storage).load id = .ok (some bundle) :=
      (Storage.load_files storage id).trans loaded
    dsimp only
    rw [Inspection.problemsOf, blobProblems_eq, Storage.danglingLines, Storage.dangling, held,
      ← (Storage.shows_files storage).stored]

/-- Whatever bytes the records hold, a check that mends nothing comes to its end and gives the lines
of each node that it comes to, once. -/
theorem check_lines (closed : storage.tree.Closed) (walked : ∃ found, storage.ids.1 = .ok found)
    (ids : List NodeId) (recursive : Bool) :
    ∃ (order : List NodeId) (warnings : List Warning), order.Nodup ∧
      (∀ id, id ∈ order ↔ (Storage.files storage).Visits recursive ids id) ∧
      storage.check ids recursive false = (.ok (order.flatMap storage.lines), storage, warnings) := by
  obtain ⟨problems, warnings, order, checked, sweep⟩ := check_sweeps closed walked ids recursive
  refine ⟨order, warnings, sweep.distinct,
    fun id => (sweep.visited id).trans (Storage.shows_files storage).visits, ?_⟩
  rw [checked, sweep.problems, funext storage.findings_eq_lines]

end FileStorage

end BundleStore
