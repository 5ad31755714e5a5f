import BundleStore.Proofs.Storage.Repairs
import Mathlib.Data.List.Dedup
import Mathlib.Data.List.Perm.Basic

set_option autoImplicit false

/-! What a check of storage in memory reports. The loop of the check comes to its end whatever the
entries of the records lead to, and it inspects each node that it comes to once. As a multiset its
report is made of one line for each node asked for that has no record, and of one for each entry
that leads nowhere in the record of a node that it comes to. A check that mends reports the same as
one that does not. -/

namespace BundleStore

/-! ### Lines of two kinds -/

/-- Lines that begin with a heading for some of the subjects are, in another order, the headings and
then what is said below them. -/
theorem headings_perm {α β : Type} (subjects : List α) (headed : α → Bool) (heading : α → β)
    (below : α → List β) :
    (subjects.flatMap (fun subject =>
        (if headed subject then [heading subject] else []) ++ below subject)).Perm
      ((subjects.filter headed).map heading ++ subjects.flatMap below) := by
  have headings : (subjects.filter headed).map heading =
      subjects.flatMap (fun subject => if headed subject then [heading subject] else []) := by
    induction subjects with
    | nil => rfl
    | cons subject rest ih =>
        rw [List.flatMap_cons, ← ih]
        cases known : headed subject with
        | false => rw [List.filter_cons_of_neg (by simp [known])]; rfl
        | true => rw [List.filter_cons_of_pos known]; rfl
  rw [headings]
  exact (List.flatMap_append_perm subjects _ below).symm

namespace Storage

variable {storage : Storage} {recursive : Bool} {ids order : List NodeId} {id : NodeId}

/-- The entries that lead nowhere in the record of the node. -/
def dangling (storage : Storage) (id : NodeId) : List Child :=
  match storage.load id with
  | .ok (some bundle) => bundle.children.filter (fun child => !storage.stored child.id)
  | _ => []

/-- The lines of a report on the entries of one node. -/
def danglingLines (storage : Storage) (id : NodeId) : List Problem :=
  (storage.dangling id).map (fun child => .child id child.name child.id)

/-- The nodes asked for that have no record, each once. -/
def missing (storage : Storage) (ids : List NodeId) : List NodeId :=
  (storage.asked ids).dedup.filter (fun id => !storage.stored id)

/-- Only a node that was asked for is come to without a record. -/
theorem Visits.asked_of_absent (visits : storage.Visits recursive ids id)
    (absent : storage.stored id = false) : id ∈ storage.asked ids := by
  cases visits with
  | asked member => exact member
  | child _visits _further _loaded _member stored =>
      rw [absent] at stored
      cases stored

/-- The nodes without a record that a check comes to are those it was asked for. -/
theorem absent_perm (distinct : order.Nodup)
    (visited : ∀ id, id ∈ order ↔ storage.Visits recursive ids id) :
    (order.filter (fun id => !storage.stored id)).Perm (storage.missing ids) := by
  refine (List.perm_ext_iff_of_nodup (distinct.filter _) ((List.nodup_dedup _).filter _)).mpr
    (fun id => ?_)
  rw [List.mem_filter, List.mem_filter, List.mem_dedup, Bool.not_eq_true']
  constructor
  · rintro ⟨member, absent⟩
    exact ⟨((visited id).mp member).asked_of_absent absent, absent⟩
  · rintro ⟨member, absent⟩
    exact ⟨(visited id).mpr (.asked member), absent⟩

end Storage

namespace MemoryStorage

variable {storage : MemoryStorage}

/-- There is one thing to say of a node without a record, and one of each of its entries that lead
nowhere if it has one. -/
theorem Sound.findings (sound : storage.Sound) (id : NodeId) :
    inspection.findings storage id =
      (if !(Storage.memory storage).stored id then [.missing id] else []) ++
        (Storage.memory storage).danglingLines id := by
  have loads : (Storage.memory storage).load id = storage.loadBundle id := rfl
  have holds : (Storage.memory storage).stored id = (storage.bundles.find? id).isSome := rfl
  rcases sound.loads id with absent | ⟨bundle, _named, _recorded, present, _encoded⟩
  · have nothing : storage.bundles.find? id = none := by
      cases found : storage.bundles.find? id with
      | none => rfl
      | some bytes =>
          obtain ⟨bundle, _named, _recorded, encoded⟩ := sound id bytes found
          rw [loadBundle_record found encoded] at absent
          cases absent
    rw [Inspection.findings_missing absent, holds, nothing, Storage.danglingLines, Storage.dangling,
      loads, absent]
    rfl
  · have something : (storage.bundles.find? id).isSome = true := by
      cases found : storage.bundles.find? id with
      | none =>
          rw [loadBundle_absent found] at present
          cases present
      | some bytes => rfl
    have unkept : inspection.problemsOf storage id bundle =
        (bundle.children.filter (fun child => !(Storage.memory storage).stored child.id)).map
          (fun child => .child id child.name child.id) := by
      rw [Inspection.problemsOf, blobProblems_eq, List.append_nil]
      rfl
    rw [Inspection.findings_present present, holds, something, Storage.danglingLines,
      Storage.dangling, loads, present, unkept]
    rfl

/-- Whatever the entries of the records lead to, a check of storage in memory comes to its end. It
inspects each node that it comes to once, and reports one line for each node asked for that has no
record and one for each entry that leads nowhere in the records it inspects. Whether it mends the
records is no matter for what it inspects and reports. -/
theorem check_reports (storage : Kept) (ids : List NodeId) (recursive : Bool) :
    ∃ (order : List NodeId) (problems : List Problem),
      order.Nodup ∧
      (∀ id, id ∈ order ↔ (Storage.memory storage.1).Visits recursive ids id) ∧
      problems.Perm (((Storage.memory storage.1).missing ids).map .missing ++
        order.flatMap (Storage.memory storage.1).danglingLines) ∧
      ∀ mend, ∃ after : Kept,
        storage.1.check ids recursive mend = (.ok problems, after.1) ∧
        inspection.Loop recursive mend
          ⟨((Storage.memory storage.1).asked ids).reverse, SortedMap.empty, []⟩ storage.1
          order problems after.1 := by
  obtain ⟨storage, sound⟩ := storage
  have runs (mend : Bool) := inspection_lawful.check (visit_follows recursive mend) sound
    ((Storage.memory storage).asked ids) (storage.unvisited_lt_visitBound _)
  obtain ⟨problems, _same, order, _checked, _sound, plain, _plain, sweep⟩ := runs false
  have visited (id : NodeId) : id ∈ order ↔ (Storage.memory storage).Visits recursive ids id :=
    (sweep.visited id).trans (Storage.shows_memory storage).visits
  refine ⟨order, problems, sweep.distinct, visited, ?_, fun mend => ?_⟩
  · rw [sweep.problems, funext sound.findings]
    exact (headings_perm order _ _ _).trans
      (((Storage.absent_perm sweep.distinct visited).map _).append_right _)
  · obtain ⟨reported, after, inspected, checked, still, loop, unmended, _sweep⟩ := runs mend
    obtain ⟨rfl, rfl, _left⟩ := plain.unique unmended
    exact ⟨⟨after, still⟩, checked, loop⟩

end MemoryStorage

end BundleStore
