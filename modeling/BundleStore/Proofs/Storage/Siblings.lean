import BundleStore.Proofs.Children
import BundleStore.Proofs.Storage.Repairs

set_option autoImplicit false

/-! The numbers of same-name siblings in storage. A repair drops entries without moving the later ones
up, so the numbering outlasts it exactly where no entry that it keeps comes after one of the same name
that it drops. -/

namespace BundleStore

/-! ### Entries that are dropped -/

namespace Child

theorem countP_filter_iff (keep sort : Child → Bool) (children : List Child) :
    (children.filter keep).countP sort = children.countP sort ↔
      ∀ child ∈ children, sort child = true → keep child = true := by
  have swapped : (children.filter keep).countP sort = (children.filter sort).countP keep := by
    rw [List.countP_filter, List.countP_filter]
    exact List.countP_congr (fun child _member => by rw [Bool.and_comm])
  rw [swapped, List.countP_eq_length_filter (p := sort), List.countP_eq_length]
  simp only [List.mem_filter, and_imp]

/-- Whoever keeps an entry has to keep those of its name before it. -/
theorem ranked_filter_iff (keep : Child → Bool) {children : List Child} (ranked : Ranked children) :
    Ranked (children.filter keep) ↔
      children.Pairwise (fun early late =>
        early.name = late.name → keep late = true → keep early = true) := by
  induction children using List.reverseRecOn with
  | nil => exact ⟨fun _ => List.Pairwise.nil, fun _ => ranked_nil⟩
  | append_singleton children last ih =>
      obtain ⟨before, counted⟩ := ranked_concat.mp ranked
      rw [List.pairwise_append, ← ih before, List.filter_append]
      simp only [List.pairwise_singleton, List.mem_singleton, forall_eq, true_and]
      cases kept : keep last with
      | false => simp [kept]
      | true =>
          have same := countP_filter_iff keep (·.name = last.name) children
          simp only [decide_eq_true_eq] at same
          rw [List.filter_cons_of_pos kept, List.filter_nil, ranked_concat, counted,
            Nat.add_right_cancel_iff, eq_comm, same]
          simp only [true_imp_iff]

end Child

/-! ### Ranks in storage -/

namespace Storage

variable {storage : Storage}

/-- The bundles that can be read have their child entries numbered by rank. -/
def AllRanked (storage : Storage) : Prop :=
  ∀ id bundle, storage.load id = .ok (some bundle) → Child.Ranked bundle.children

/-- No entry for a stored node comes after one of the same name for a node that is not stored. -/
def Gapless (storage : Storage) (bundle : Bundle) : Prop :=
  bundle.children.Pairwise (fun early late =>
    early.name = late.name → storage.stored late.id = true → storage.stored early.id = true)

/-- The storage after a repairing check. -/
def repair (storage : Storage) (ids : List NodeId) (recursive : Bool) : Storage :=
  (storage.serve (.checkConsistency ids recursive true)).2.1

theorem Repaired.allRanked_iff {recursive : Bool} {ids : List NodeId} {before after : Storage}
    (repaired : Repaired recursive ids before after) (ranked : before.AllRanked) :
    after.AllRanked ↔ ∀ id bundle, before.Visits recursive ids id →
      before.load id = .ok (some bundle) → before.Gapless bundle := by
  have kept : ∀ {id bundle}, before.load id = .ok (some bundle) →
      (Child.Ranked (before.pruned bundle).children ↔ before.Gapless bundle) :=
    fun loaded => Child.ranked_filter_iff _ (ranked _ _ loaded)
  constructor
  · intro still id bundle visits loaded
    have pruned := repaired.visited id visits
    rw [loaded] at pruned
    exact (kept loaded).mp (still id _ pruned)
  · intro gapless id later found
    by_cases visits : before.Visits recursive ids id
    · rw [repaired.visited id visits] at found
      cases loaded : before.load id with
      | error cause =>
          rw [loaded] at found
          cases found
      | ok bundle? =>
          rw [loaded] at found
          cases bundle? with
          | none => cases found
          | some bundle =>
              cases found
              exact (kept loaded).mpr (gapless id bundle visits loaded)
    · rw [repaired.others id visits] at found
      exact ranked id later found

/-- The numbering outlasts a repair exactly where the bundles that it comes to have no gaps. -/
theorem ranked_after_repair (orderly : storage.Orderly) (ranked : storage.AllRanked)
    (ids : List NodeId) (recursive : Bool) :
    (storage.repair ids recursive).AllRanked ↔
      ∀ id bundle, storage.Visits recursive ids id → storage.load id = .ok (some bundle) →
        storage.Gapless bundle :=
  (orderly.repair ids recursive rfl).2.1.allRanked_iff ranked

end Storage

/-! ### Bundles put into empty storage -/

namespace MemoryStorage

def holding (bundles : List Bundle) : MemoryStorage :=
  bundles.foldl (fun storage bundle => (storage.storeBundle bundle).2) empty

theorem holding_concat (bundles : List Bundle) (last : Bundle) :
    holding (bundles ++ [last]) = ((holding bundles).storeBundle last).2 := by
  rw [holding, List.foldl_append]
  rfl

theorem holding_sound (bundles : List Bundle) : (holding bundles).Sound := by
  induction bundles using List.reverseRecOn with
  | nil => exact empty_sound
  | append_singleton bundles last ih =>
      rw [holding_concat]
      exact serve_sound ih (.storeBundle last)

theorem holding_loads {bundles : List Bundle} {id : NodeId} {bundle : Bundle}
    (loaded : (holding bundles).loadBundle id = .ok (some bundle)) :
    ∃ held ∈ bundles, bundle = held.record := by
  induction bundles using List.reverseRecOn with
  | nil => cases loaded
  | append_singleton bundles last ih =>
      rw [holding_concat, storeBundle] at loaded
      cases encoded : Record.encode Record.bundle last with
      | error cause =>
          rw [encoded] at loaded
          obtain ⟨held, member, same⟩ := ih loaded
          exact ⟨held, List.mem_append_left _ member, same⟩
      | ok bytes =>
          rw [encoded] at loaded
          dsimp only at loaded
          by_cases same : id = last.id
          · rw [same, loadBundle_record (SortedMap.find?_insert_self ..) encoded] at loaded
            cases loaded
            exact ⟨last, by simp, rfl⟩
          · rw [loadBundle_congr (SortedMap.find?_insert_of_ne _ same bytes)] at loaded
            obtain ⟨held, member, same⟩ := ih loaded
            exact ⟨held, List.mem_append_left _ member, same⟩

end MemoryStorage

/-! ### A book of two chapters -/

namespace Chapters

def first : NodeId := ⟨List.replicate 15 0 ++ [1], rfl⟩

def second : NodeId := ⟨List.replicate 15 0 ++ [2], rfl⟩

def chapter : Name := ⟨"", "chapter"⟩

def book : Node :=
  ((Node.fresh NodeId.zero Name.unstructured none).addChild chapter first).addChild chapter second

/-- The book, and of its chapters only this one. -/
def bundles (kept : NodeId) : List Bundle :=
  [Bundle.ofNode book, Bundle.ofNode (Node.fresh kept Name.unstructured (some NodeId.zero))]

def shelf (kept : NodeId) : Storage := .memory (.holding (bundles kept))

theorem book_ranked : Child.Ranked book.children :=
  Node.ranked_addChild (Node.ranked_addChild Child.ranked_nil (by decide) first) (by decide) second

theorem shelf_orderly (kept : NodeId) : (shelf kept).Orderly :=
  MemoryStorage.holding_sound (bundles kept)

theorem shelf_loads {kept id : NodeId} {bundle : Bundle}
    (loaded : (shelf kept).load id = .ok (some bundle)) :
    bundle.children = book.children ∨ bundle.children = [] := by
  obtain ⟨held, member, rfl⟩ := MemoryStorage.holding_loads loaded
  rcases List.mem_pair.mp member with rfl | rfl
  · exact Or.inl rfl
  · exact Or.inr rfl

theorem shelf_ranked (kept : NodeId) : (shelf kept).AllRanked := by
  intro id bundle loaded
  rcases shelf_loads loaded with same | same
  · exact same ▸ book_ranked
  · exact same ▸ Child.ranked_nil

/-- The second chapter is missing. -/
theorem first_ranked : ((shelf first).repair [] true).AllRanked := by
  refine (Storage.ranked_after_repair (shelf_orderly first) (shelf_ranked first) [] true).mpr ?_
  intro id bundle _visits loaded
  unfold Storage.Gapless
  rcases shelf_loads loaded with same | same
  · rw [same]
    decide +kernel
  · rw [same]
    exact List.Pairwise.nil

set_option maxRecDepth 2500 in
/-- The first chapter is missing. -/
theorem second_unranked :
    ¬ ∀ (storage : Storage) (ids : List NodeId) (recursive : Bool), storage.Orderly →
      storage.AllRanked → (storage.repair ids recursive).AllRanked := by
  intro claimed
  have ranked := claimed (shelf second) [] true (shelf_orderly second) (shelf_ranked second)
  have left : (((shelf second).repair [] true).load NodeId.zero).map
      (Option.map Bundle.children) = .ok (some [⟨chapter, second, 2⟩]) := by
    decide +kernel
  cases loaded : ((shelf second).repair [] true).load NodeId.zero with
  | error cause =>
      rw [loaded] at left
      cases left
  | ok bundle? =>
      rw [loaded] at left
      obtain ⟨bundle, rfl, children⟩ := Option.map_eq_some_iff.mp (Except.ok.inj left)
      have here := ranked NodeId.zero bundle loaded 0 ⟨chapter, second, 2⟩ (by rw [children]; rfl)
      rw [List.take_zero, List.countP_nil] at here
      exact absurd here (by decide)

end Chapters

end BundleStore
