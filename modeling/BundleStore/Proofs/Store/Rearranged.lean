import BundleStore.Proofs.Store.Confluence
import BundleStore.Proofs.Store.Refusals

set_option autoImplicit false

/-! Logs that say the same in another order. As long as they say one thing of each item, neither
what a store makes of a log nor whether it goes well tells the order of the items. -/

namespace BundleStore

/-- The logs have the same items and lists, in whatever order within each part. -/
structure ChangeLog.Rearranges (left right : ChangeLog) : Prop where
  added : left.added.Perm right.added
  modified : left.modified.Perm right.modified
  deleted : left.deleted.Perm right.deleted
  references : left.references.Perm right.references

variable {faults : Faults} {threshold : Nat} {left right : ChangeLog}

namespace ChangeLog.Rearranges

theorem symm (rearranges : left.Rearranges right) : right.Rearranges left :=
  ⟨rearranges.added.symm, rearranges.modified.symm, rearranges.deleted.symm,
    rearranges.references.symm⟩

theorem items (rearranges : left.Rearranges right) : left.items.Perm right.items :=
  (rearranges.added.append rearranges.modified).append rearranges.deleted

theorem distinct (rearranges : left.Rearranges right) (distinct : left.Distinct) :
    right.Distinct :=
  (rearranges.items.map Item.id).nodup_iff.mp distinct

theorem targets (rearranges : left.Rearranges right)
    (targets : (left.references.map References.target).Nodup) :
    (right.references.map References.target).Nodup :=
  (rearranges.references.map References.target).nodup_iff.mp targets

theorem names (rearranges : left.Rearranges right) {property : PropertyId}
    (names : left.Names property) : right.Names property := by
  obtain ⟨item, member, named⟩ := names
  exact ⟨item, rearranges.items.mem_iff.mp member, named⟩

theorem addedNodes (rearranges : left.Rearranges right) :
    left.addedNodes.Perm right.addedNodes := rearranges.added.filterMap Item.node?

theorem deletedNodes (rearranges : left.Rearranges right) :
    left.deletedNodes.Perm right.deletedNodes := rearranges.deleted.filterMap Item.node?

theorem changes (rearranges : left.Rearranges right) : left.changes.Perm right.changes := by
  have updated := (rearranges.modified.filterMap Item.node?).map Change.update
  have modified := (rearranges.modified.filterMap Item.property?).map Change.put
  have dropped := (rearranges.deleted.filterMap Item.property?).map Change.drop
  have added := (rearranges.added.filterMap Item.property?).map Change.put
  exact ((updated.append modified).append dropped).append added

theorem deletes (rearranges : left.Rearranges right) : left.Deletes = right.Deletes := by
  funext id
  refine propext ⟨fun ⟨node, member, named⟩ => ?_, fun ⟨node, member, named⟩ => ?_⟩
  · exact ⟨node, rearranges.deletedNodes.mem_iff.mp member, named⟩
  · exact ⟨node, rearranges.deletedNodes.mem_iff.mpr member, named⟩

theorem available (rearranges : left.Rearranges right) {contents : Contents} {id : NodeId}
    (available : left.Available contents id) : right.Available contents id := by
  rcases available with ⟨node, member, named⟩ | stored
  · exact Or.inl ⟨node, rearranges.addedNodes.mem_iff.mp member, named⟩
  · rw [rearranges.deletes] at stored
    exact Or.inr stored

/-- Nothing stands in the way of the one log if nothing stands in the way of the other. -/
theorem applicable (rearranges : left.Rearranges right) {contents : Contents}
    (applicable : left.Applicable contents) : right.Applicable contents := by
  have owned (change : Change) (member : change ∈ right.changes) (due : right.Due change) :
      right.Available contents change.node := by
    rw [ChangeLog.Due, ← rearranges.deletes] at due
    exact rearranges.available
      (applicable.owned (rearranges.changes.mem_iff.mpr member) due)
  refine .of_owned ?_ (fun node member => ?_) owned
  · exact (rearranges.deletedNodes.map Node.id).nodup_iff.mp applicable.distinct
  · exact applicable.deletable node (rearranges.deletedNodes.mem_iff.mpr member)

end ChangeLog.Rearranges

/-! ### What is drafted and what is stored -/

section

variable {before : Contents}

/-- Of both logs the same draft is made. -/
theorem Drafted.same (rearranges : left.Rearranges right) (distinct : left.Distinct)
    (release : faults.Release) (proper : before.Proper) (assigned : before.Assigned)
    (unmixed : before.Unmixed left.Names) {leftCleared rightCleared : Contents}
    {leftDraft rightDraft : Draft}
    (onLeft : Drafted faults threshold left before leftCleared leftDraft)
    (onRight : Drafted faults threshold right before rightCleared rightDraft)
    (leftFiled : leftDraft.Filed) (rightFiled : rightDraft.Filed) :
    leftDraft.bundle? = rightDraft.bundle? ∧ leftDraft.contents = rightDraft.contents := by
  obtain rfl : leftCleared = rightCleared := Contents.cleared_of_perm rearranges.deletedNodes
    onLeft.deleted onRight.deleted release proper assigned
  -- With the same nodes gone, both stagings start from one draft.
  have makes := onRight.made
  rw [← rearranges.deletes, ← Draft.start_perm rearranges.addedNodes
    (fun isLeft isRight named => distinct.added_once isLeft isRight named)] at makes
  have slots : leftCleared.slots = before.slots := assigned.same onLeft.clears.spares.slots
  have tidy : (Draft.start left.addedNodes leftCleared).Tidy
      (Change.AnyTouches left.Deletes left.changes) := by
    refine ⟨Draft.start_owns (onLeft.clears.proper proper), fun property place => ?_,
      fun isLeft isRight first second => ?_⟩
    · change ∃ blob, leftCleared.slots property place = some blob
      rw [slots]
      exact assigned property place
    · exact unmixed (ChangeLog.Touches.names isLeft) (ChangeLog.Touches.names isRight)
        (first.congr slots) (second.congr slots)
  have subjects := distinct.subjects
  constructor
  · exact Records.ext leftFiled rightFiled
      (Change.headers_of_perm rearranges.changes onLeft.made makes subjects)
      (Change.entries_of_perm rearranges.changes onLeft.made makes subjects release tidy)
  · exact Change.contents_of_perm rearranges.changes onLeft.made makes subjects release tidy

/-- Both logs leave the same behind. -/
theorem Applied.same (rearranges : left.Rearranges right) (distinct : left.Distinct)
    (targets : (left.references.map References.target).Nodup) (release : faults.Release)
    (proper : before.Proper) (assigned : before.Assigned) (unmixed : before.Unmixed left.Names)
    {leftAfter rightAfter : Contents} (onLeft : Applied faults threshold left before leftAfter)
    (onRight : Applied faults threshold right before rightAfter) : leftAfter = rightAfter := by
  obtain ⟨_leftCleared, leftDraft, leftDrafted, leftCompleted⟩ := onLeft.completed proper
  obtain ⟨_rightCleared, rightDraft, rightDrafted, rightCompleted⟩ := onRight.completed proper
  obtain ⟨records, contents⟩ := leftDrafted.same rearranges distinct release proper assigned
    unmixed rightDrafted leftCompleted.filed rightCompleted.filed
  obtain ⟨leftWritten, leftKept, leftLists⟩ := leftCompleted.listed
  obtain ⟨rightWritten, rightKept, rightLists⟩ := rightCompleted.listed
  refine Contents.ext ?_ ?_ ?_ ?_
  · rw [leftCompleted.bundles, rightCompleted.bundles, records]
  · exact Contents.listed_of_perm rearranges.references leftLists rightLists targets
      (leftKept.trans rightKept.symm)
  · rw [leftCompleted.blobs, rightCompleted.blobs, contents]
  · rw [leftCompleted.slots, rightCompleted.slots, contents]

/-- If one of the logs has been stored, the other is denied only because of a bundle that has been
written, or a reference list. -/
theorem Repository.Denied.written (rearranges : left.Rearranges right) (distinct : left.Distinct)
    (release : faults.Release) (calm : faults.Calm) (proper : before.Proper)
    (assigned : before.Assigned) (unmixed : before.Unmixed left.Names) {after : Contents}
    (applied : Applied faults threshold left before after) {error : RepositoryError}
    (denied : Repository.Denied faults threshold right before error) :
    ∃ call cause contents, faults call cause contents ∧
      ((∃ bundle, call = .storeBundle bundle ∧ after.bundles bundle.id = some bundle.record) ∨
        call.lists = true) := by
  cases denied with
  | refused refused =>
      obtain ⟨id, first, _named⟩ := refused.first calm
      rw [ChangeLog.violations_eq_nil.mpr (rearranges.applicable applied.applicable)] at first
      cases first
  | @halted staged reached cleared drawn halted =>
      obtain ⟨call, cause, contents, _same, fault, which⟩ := halted
      refine ⟨call, cause, contents, fault, which.imp_left ?_⟩
      rintro ⟨bundle, member, rfl⟩
      refine ⟨bundle, rfl, ?_⟩
      have gives := Repository.seen_gives drawn.inOrder
      obtain ⟨_leftCleared, _draft, drafted, completed⟩ := applied.completed proper
      have records := (drafted.same rearranges distinct release proper assigned unmixed
        (drafted_of_chains proper drawn.deleted drawn.made) completed.filed gives.filed).1
      rw [completed.bundles, records]
      exact gives.bundle? member

end

/-! ### Storage in memory -/

namespace MemoryStorage

theorem faults_release : MemoryStorage.faults.Release := fun _blob _error _contents never => never

theorem faults_calm : MemoryStorage.faults.Calm := by
  rintro _cause ⟨call, _contents, drafts, fault⟩
  cases call with
  | getBlob blob => cases drafts
  | storeBundle bundle => cases drafts
  | _ => exact fault

theorem faults_lists {call : StorageCall} (lists : call.lists = true) {cause : StorageError}
    {contents : Contents} : ¬ MemoryStorage.faults call cause contents := by
  intro fault
  cases call with
  | storeReferences references => exact fault
  | destroyReferences target => exact fault
  | _ => cases lists

theorem contents_assigned (storage : Kept) : (contents storage).Assigned :=
  fun _property _place => ⟨_, rfl⟩

end MemoryStorage

namespace System

/-- If one of the logs is stored in memory, so is the other, and the same is stored. -/
theorem stored_of_rearranged {system leftAfter : System MemoryStorage.backend}
    (reachable : system.Reachable) (rearranges : left.Rearranges right) (distinct : left.Distinct)
    (targets : (left.references.map References.target).Nodup)
    (unmixed : system.contents.Unmixed left.Names)
    (stored : (Repository.store threshold left).run serve system = (.ok (), leftAfter)) :
    ∃ rightAfter, (Repository.store threshold right).run serve system = (.ok (), rightAfter) ∧
      leftAfter.storage = rightAfter.storage := by
  obtain ⟨rest, proper⟩ := reachable.atRest
  have assigned : system.contents.Assigned := MemoryStorage.contents_assigned system.storage
  have applied := (rest.store MemoryStorage.backend_faults threshold left stored).2
  have met := (Repository.store_denials MemoryStorage.faults threshold right).run
    MemoryStorage.backend_faults rest trivial
  rcases outcome : (Repository.store threshold right).run serve system with ⟨result, rightAfter⟩
  rw [outcome] at met
  obtain ⟨next, sound, ends⟩ := met
  cases result with
  | ok _unit =>
      refine ⟨rightAfter, rfl, MemoryStorage.contents_injective ?_⟩
      have appliedToo : Applied MemoryStorage.faults threshold right system.contents
          rightAfter.contents := sound.contents ▸ ends.2
      exact applied.same rearranges distinct targets MemoryStorage.faults_release proper assigned
        unmixed appliedToo
  | error error =>
      obtain ⟨call, cause, _contents, fault, which⟩ := ends.2.2.written rearranges distinct
        MemoryStorage.faults_release MemoryStorage.faults_calm proper assigned unmixed applied
      -- What this log is to write the other one has written, so that it fits into records.
      rcases which with ⟨bundle, rfl, held⟩ | lists
      · exact absurd fault (leftAfter.storage.2.encodes held cause)
      · exact absurd fault (MemoryStorage.faults_lists lists)

/-- In memory a store does not depend on the order of the items within the parts of its log, nor on
that of the reference lists, as long as the log names no item twice, lists no target twice, and does
not name two properties whose blobs could share an identifier: in any other order it succeeds as
well, and leaves the same records, the same reference lists and the same blobs. -/
theorem store_rearranged (system : System MemoryStorage.backend) (reachable : system.Reachable)
    (threshold : Nat) (left right : ChangeLog) (rearranges : left.Rearranges right)
    (distinct : left.Distinct) (targets : (left.references.map References.target).Nodup)
    (apart : ∀ {property other : PropertyId} {place further : Nat}, left.Names property →
      left.Names other →
      MemoryStorage.blobId property place = MemoryStorage.blobId other further →
      property = other) :
    (((Repository.store threshold left).run serve system).1 = .ok () ↔
      ((Repository.store threshold right).run serve system).1 = .ok ()) ∧
    (((Repository.store threshold left).run serve system).1 = .ok () →
      ((Repository.store threshold left).run serve system).2.storage =
        ((Repository.store threshold right).run serve system).2.storage) := by
  have unmixed : system.contents.Unmixed left.Names := by
    rintro property other blob names namesToo ⟨place, given⟩ ⟨further, givenToo⟩
    exact apart names namesToo ((Option.some.inj given).trans (Option.some.inj givenToo).symm)
  have forward (succeeds : ((Repository.store threshold left).run serve system).1 = .ok ()) :=
    stored_of_rearranged reachable rearranges distinct targets unmixed (Prod.ext succeeds rfl)
  refine ⟨⟨fun succeeds => ?_, fun succeeds => ?_⟩, fun succeeds => ?_⟩
  · obtain ⟨_after, stored, _same⟩ := forward succeeds
    exact congrArg Prod.fst stored
  · obtain ⟨_after, stored, _same⟩ := stored_of_rearranged reachable rearranges.symm
      (rearranges.distinct distinct) (rearranges.targets targets)
      (fun names namesToo => unmixed (rearranges.symm.names names) (rearranges.symm.names namesToo))
      (Prod.ext succeeds rfl)
    exact congrArg Prod.fst stored
  · obtain ⟨_after, stored, same⟩ := forward succeeds
    rw [stored]
    exact same

def note : PropertyId := ⟨NodeId.zero, ⟨"", "note"⟩⟩

def page : PropertyId := ⟨other, ⟨"", "letter"⟩⟩

/-- The node of the letter gets a note and a child with a letter of its own, and the letter is
rewritten. -/
def pageLog : ChangeLog where
  added :=
    [.node (Node.fresh other Name.unstructured (some NodeId.zero)),
      .property (Property.single note (.binary [7, 8, 9])),
      .property (Property.single page (.binary [1, 2, 3]))]
  modified :=
    [.property (Property.single letter (.binary [4, 5, 6])),
      .node ((Node.fresh NodeId.zero Name.unstructured none).addChild ⟨"", "page"⟩ other)]
  deleted := []
  references :=
    [⟨NodeId.zero, SortedSet.ofElements [page]⟩, ⟨other, SortedSet.ofElements [letter, note]⟩]

def turnedLog : ChangeLog :=
  ⟨pageLog.added.reverse, pageLog.modified.reverse, pageLog.deleted.reverse,
    pageLog.references.reverse⟩

theorem pageLog_names {property : PropertyId} (names : pageLog.Names property) :
    property = note ∨ property = page ∨ property = letter := by
  obtain ⟨item, member, named⟩ := names
  have listed : ItemId.property property ∈ pageLog.items.map Item.id :=
    named ▸ List.mem_map_of_mem member
  simpa [pageLog, ChangeLog.items, Item.id, Property.single, Property.fresh] using listed

theorem pageLog_apart {property left : PropertyId} {place further : Nat}
    (names : pageLog.Names property) (namesToo : pageLog.Names left)
    (same : MemoryStorage.blobId property place = MemoryStorage.blobId left further) :
    property = left := by
  have node := MemoryStorage.blobId_node same
  have name := MemoryStorage.blobId_name same
  rcases pageLog_names names with rfl | rfl | rfl <;>
    rcases pageLog_names namesToo with rfl | rfl | rfl <;>
    first
      | rfl
      | exact absurd node (by decide)
      | exact absurd name (by decide)

set_option maxRecDepth 2500 in
theorem page_turned :
    ((Repository.store 2 turnedLog).run serve afterLetter).1 = .ok () ∧
      ((Repository.store 2 pageLog).run serve afterLetter).2.storage =
        ((Repository.store 2 turnedLog).run serve afterLetter).2.storage := by
  have rearranges : pageLog.Rearranges turnedLog := ⟨(List.reverse_perm _).symm,
    (List.reverse_perm _).symm, (List.reverse_perm _).symm, (List.reverse_perm _).symm⟩
  have distinct : pageLog.Distinct := by
    unfold ChangeLog.Distinct
    decide +kernel
  have succeeds : ((Repository.store 2 pageLog).run serve afterLetter).1 = .ok () := by
    decide +kernel
  obtain ⟨alike, same⟩ := store_rearranged afterLetter afterLetter_reachable 2 pageLog turnedLog
    rearranges distinct (by decide +kernel) pageLog_apart
  exact ⟨alike.mp succeeds, same succeeds⟩

end System

end BundleStore
