import BundleStore.Proofs.Storage.Reports

set_option autoImplicit false

/-! What a mending check leaves of storage in memory. The records of the nodes that it comes to lose
the entries that lead nowhere, and nothing else changes. No entry leads nowhere after that, so a
second check comes to the same nodes, finds nothing to report but the nodes asked for that have no
record, and changes nothing. -/

namespace BundleStore

namespace Inspection

variable {σ : Type} {inspection : Inspection σ} {before after later : σ} {nodes : List NodeId}

/-- Pruning what has been pruned changes no record. -/
theorem Pruned.again (once : inspection.Pruned nodes before after) {others : List NodeId}
    (among : ∀ id ∈ others, id ∈ nodes) (twice : inspection.Pruned others after later) (id : NodeId) :
    inspection.load later id = inspection.load after id := by
  rw [twice.load]
  split
  · rename_i member
    rw [once.load, if_pos (among id member), funext (pruned_congr once.stored)]
    rcases inspection.load before id with cause | none | bundle
    · rfl
    · rfl
    · have same : inspection.pruned before (inspection.pruned before bundle) =
          inspection.pruned before bundle := by
        simp only [pruned, storedChildren, List.filter_filter, Bool.and_self]
      exact congrArg (fun pruned => Except.ok (some pruned)) same
  · rfl

end Inspection

namespace Storage

variable {before after : Storage} {recursive : Bool} {ids : List NodeId} {id : NodeId}

/-- The entries that a repair takes away lead to no visit. -/
theorem Repaired.visits (repaired : Repaired recursive ids before after)
    (asked : after.asked ids = before.asked ids) :
    after.Visits recursive ids id ↔ before.Visits recursive ids id := by
  constructor
  · intro visits
    induction visits with
    | asked member => exact .asked (asked ▸ member)
    | @child parent bundle child _visits further loaded member stored ih =>
        rw [repaired.visited parent ih] at loaded
        rcases held : before.load parent with cause | none | whole
        · simp [held, Except.map] at loaded
        · simp [held, Except.map] at loaded
        · rw [held] at loaded
          cases loaded
          exact .child ih further held (List.mem_filter.mp member).1 (repaired.stored ▸ stored)
  · intro visits
    induction visits with
    | asked member => exact .asked (asked ▸ member)
    | @child parent bundle child visits further loaded member stored ih =>
        have now : after.load parent = .ok (some (before.pruned bundle)) := by
          rw [repaired.visited parent visits, loaded]
          rfl
        exact .child ih further now (List.mem_filter.mpr ⟨member, stored⟩) (repaired.stored ▸ stored)

/-- No entry of a repaired record leads nowhere. -/
theorem Repaired.danglingLines (repaired : Repaired recursive ids before after)
    (visits : before.Visits recursive ids id) : after.danglingLines id = [] := by
  rw [Storage.danglingLines, dangling, repaired.visited id visits]
  rcases before.load id with cause | none | bundle
  · rfl
  · rfl
  · have leads : ∀ child ∈ (before.pruned bundle).children,
        ¬ (!after.stored child.id) = true := by
      intro child member
      rw [repaired.stored, (List.mem_filter.mp member).2]
      exact Bool.false_ne_true
    exact congrArg (List.map _) (List.filter_eq_nil_iff.mpr leads)

end Storage

namespace MemoryStorage

variable {before after : MemoryStorage} {recursive mend : Bool} {ids : List NodeId}

/-- Every record that the check comes to has the entries that led to a record, in their order, and
is otherwise what it was; all else is what it was to the byte. -/
structure Mends (recursive : Bool) (ids : List NodeId) (before after : MemoryStorage) : Prop where
  visited : ∀ {id bundle}, (Storage.memory before).Visits recursive ids id →
    before.loadBundle id = .ok (some bundle) →
    after.loadBundle id = .ok (some { bundle with
      children := bundle.children.filter (fun child => before.bundles.contains child.id) })
  others : ∀ {id}, ¬ (Storage.memory before).Visits recursive ids id →
    after.bundles.find? id = before.bundles.find? id
  ids : after.ids = before.ids
  references : after.references = before.references
  blobs : after.blobs = before.blobs

theorem bundle?_congr {id : NodeId} (loads : after.loadBundle id = before.loadBundle id) :
    after.bundle? id = before.bundle? id := by
  rw [bundle?, bundle?, loads]

/-- Records that read alike are alike to the byte. -/
theorem Sound.find?_congr (sound : before.Sound) (still : after.Sound) {id : NodeId}
    (loads : after.loadBundle id = before.loadBundle id) :
    after.bundles.find? id = before.bundles.find? id := by
  rw [still.find?_bundles, sound.find?_bundles, bundle?_congr loads]

/-- A check goes through to its end, visits each node that it comes to once, and leaves the
references and the blobs alone. -/
theorem Sound.swept (sound : before.Sound) (ids : List NodeId) (recursive mend : Bool) :
    ∃ problems after order,
      before.check ids recursive mend = (.ok problems, after) ∧ after.Sound ∧
        inspection.Sweep recursive mend ((Storage.memory before).asked ids) before after problems
          order ∧
        after.references = before.references ∧ after.blobs = before.blobs := by
  obtain ⟨problems, after, order, checked, still, _loop, _plain, sweep⟩ :=
    inspection_lawful.check (visit_follows recursive mend) sound
      ((Storage.memory before).asked ids) (before.unvisited_lt_visitBound _)
  obtain ⟨_ends, _still, mended, _kept⟩ := visit_mended recursive mend
    (before.visitBound ((Storage.memory before).asked ids))
    ⟨((Storage.memory before).asked ids).reverse, SortedMap.empty, []⟩ sound
  rw [checked] at mended
  exact ⟨problems, after, order, checked, still, sweep, mended.references, mended.blobs⟩

/-- Nothing is created or deleted where the same nodes have records. -/
theorem ids_congr (stored : (Storage.memory after).stored = (Storage.memory before).stored) :
    after.ids = before.ids :=
  SortedMap.keys_congr stored

theorem asked_congr (same : after.ids = before.ids) (ids : List NodeId) :
    (Storage.memory after).asked ids = (Storage.memory before).asked ids := by
  change (if ids.isEmpty then after.ids else ids) = (if ids.isEmpty then before.ids else ids)
  rw [same]

/-- What a mending check has done, as its sweep tells it. -/
theorem Sound.mends (sound : before.Sound) (still : after.Sound)
    (repaired : Storage.Repaired recursive ids (.memory before) (.memory after))
    (references : after.references = before.references) (blobs : after.blobs = before.blobs) :
    Mends recursive ids before after := by
  refine ⟨fun {id bundle} visits loaded => ?_, fun {id} unvisited => ?_, ids_congr repaired.stored,
    references, blobs⟩
  · have loads : after.loadBundle id = (before.loadBundle id).map _ := repaired.visited id visits
    rw [loads, loaded]
    rfl
  · exact sound.find?_congr still (repaired.others id unvisited)

/-- A check of what was mended changes nothing and reports only the nodes without a record. -/
theorem Sound.checks_again (still : after.Sound) {problems : List Problem} {order : List NodeId}
    (sweep : inspection.Sweep recursive true ((Storage.memory before).asked ids) before after
      problems order) (mend : Bool) :
    ∃ reported, after.check ids recursive mend = (.ok reported, after) ∧
      reported.Perm (((Storage.memory before).missing ids).map .missing) := by
  have repaired := (Storage.shows_memory before).repaired (Storage.shows_memory after) sweep
  have same := asked_congr (ids_congr repaired.stored) ids
  obtain ⟨reported, later, visited, checked, good, second, references, blobs⟩ :=
    still.swept ids recursive mend
  have visits (id : NodeId) : id ∈ visited ↔ (Storage.memory before).Visits recursive ids id :=
    (second.visited id).trans ((Storage.shows_memory after).visits.trans (repaired.visits same))
  have unchanged (id : NodeId) : later.bundles.find? id = after.bundles.find? id := by
    refine still.find?_congr good (sweep.mended.again (fun other member => ?_) second.mended id)
    have known : other ∈ visited := by
      cases mend with
      | false => cases member
      | true => exact member
    exact (sweep.visited other).mpr ((Storage.shows_memory before).visits.mpr ((visits other).mp known))
  refine ⟨reported, ?_, ?_⟩
  · obtain rfl : later = after := by
      rw [MemoryStorage.mk.injEq]
      exact ⟨SortedMap.ext_find? (funext unchanged), references, blobs⟩
    exact checked
  · have silent : visited.flatMap (Storage.memory after).danglingLines = [] :=
      List.flatMap_eq_nil_iff.mpr (fun id member => repaired.danglingLines ((visits id).mp member))
    have lines := headings_perm visited (fun id => !(Storage.memory after).stored id) .missing
      (Storage.memory after).danglingLines
    rw [silent, List.append_nil, repaired.stored] at lines
    rw [second.problems, funext still.findings, repaired.stored]
    exact lines.trans ((Storage.absent_perm second.distinct visits).map _)

/-- A mending check of storage in memory comes to its end and takes the entries away that lead
nowhere, of each record that it comes to, and nothing else. Asked for the same again, mending or not,
it reports the nodes asked for that have no record, each once, and nothing changes any more. -/
theorem check_mends (storage : Kept) (ids : List NodeId) (recursive : Bool) :
    ∃ (problems : List Problem) (after : Kept),
      storage.1.check ids recursive true = (.ok problems, after.1) ∧
      Mends recursive ids storage.1 after.1 ∧
      ∀ mend, ∃ reported : List Problem,
        after.1.check ids recursive mend = (.ok reported, after.1) ∧
        reported.Perm (((Storage.memory storage.1).missing ids).map .missing) := by
  obtain ⟨storage, sound⟩ := storage
  obtain ⟨problems, after, order, checked, still, sweep, references, blobs⟩ :=
    sound.swept ids recursive true
  have repaired := (Storage.shows_memory storage).repaired (Storage.shows_memory after) sweep
  exact ⟨problems, ⟨after, still⟩, checked, sound.mends still repaired references blobs,
    still.checks_again sweep⟩

end MemoryStorage

end BundleStore
