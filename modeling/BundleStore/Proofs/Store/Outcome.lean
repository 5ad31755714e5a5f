import BundleStore.Proofs.Store.Passes

set_option autoImplicit false

/-! What storage holds when a store has ended, well or not, in terms of the draft that it got to.
Every entry of every record stays its property's own, whatever fails on the way. -/

namespace BundleStore

variable {faults : Faults} {threshold : Nat} {log : ChangeLog} {before cleared after : Contents}
  {draft : Draft}

namespace ChangeLog

/-- The log puts the property, or drops it from a node that stays. -/
def Touches (log : ChangeLog) (property : PropertyId) : Prop :=
  Change.AnyTouches log.Deletes log.changes property

/-- The blobs of a property may change in a store: its node's record has been deleted on the way,
or the log touches it. -/
def Within (log : ChangeLog) (cleared : Contents) (property : PropertyId) : Prop :=
  cleared.bundles property.node = none ∨ log.Touches property

end ChangeLog

/-- The draft is what a store has made of the log when everything is staged. -/
structure Drafted (faults : Faults) (threshold : Nat) (log : ChangeLog)
    (before cleared : Contents) (draft : Draft) : Prop where
  deleted : Chain (Contents.Deletes faults) log.deletedNodes before cleared
  clears : Contents.Cleared before cleared
  absent : ∀ node ∈ log.deletedNodes, cleared.bundles node.id = none
  kept : ∀ {id}, ¬ log.Deletes id → cleared.bundles id = before.bundles id
  made : Chain (Change.Makes faults threshold log.Deletes) log.changes
    (Draft.start log.addedNodes cleared) draft

theorem drafted_of_chains (proper : before.Proper)
    (deleted : Chain (Contents.Deletes faults) log.deletedNodes before cleared)
    (made : Chain (Change.Makes faults threshold log.Deletes) log.changes
      (Draft.start log.addedNodes cleared) draft) :
    Drafted faults threshold log before cleared draft := by
  refine ⟨deleted, Contents.cleared_of_chain deleted proper,
    fun _node member => Contents.absent_of_chain deleted member, fun stays => ?_, made⟩
  exact Contents.kept_of_chain deleted (fun node member named => stays ⟨node, member, named⟩)

namespace Drafted

theorem bundles (drafted : Drafted faults threshold log before cleared draft) :
    draft.contents.bundles = cleared.bundles :=
  (Change.aside_of_chain drafted.made).1

theorem references (drafted : Drafted faults threshold log before cleared draft) :
    draft.contents.references = before.references :=
  (Change.aside_of_chain drafted.made).2.trans drafted.clears.references

theorem owns (drafted : Drafted faults threshold log before cleared draft)
    (proper : before.Proper) : draft.contents.Owns draft.bundle? :=
  (Change.staged_of_chain drafted.made
    (Draft.start_owns (drafted.clears.proper proper))).1

theorem spares (drafted : Drafted faults threshold log before cleared draft)
    (proper : before.Proper) :
    Contents.Spares (log.Within cleared) before draft.contents := by
  have staged := (Change.staged_of_chain drafted.made
    (Draft.start_owns (drafted.clears.proper proper))).2
  exact (drafted.clears.spares.wider (fun _property gone => Or.inl gone)).trans
    (staged.wider (fun _property touched => Or.inr touched))

end Drafted

/-- The blobs of an entry whose record has not been deleted are spared, but for those that belong to
a property that the log touches. -/
theorem Contents.Spares.blobs_of_entry
    (spares : Contents.Spares (log.Within cleared) before after) (proper : before.Proper)
    {property : PropertyId} {stored : StoredProperty}
    (found : entryOf before.bundles property = some stored)
    (stays : cleared.bundles property.node ≠ none) {blob : String} (own : blob ∈ stored.blobs)
    (apart : ∀ other, log.Touches other → ¬ after.SlotOf other blob) :
    after.blobs blob = before.blobs blob := by
  obtain ⟨_place, mine⟩ := spares.slotOf ((proper property stored found).slotOf own)
  apply spares.blobs
  intro other within given
  rcases within with gone | touches
  · obtain ⟨_other, theirs⟩ := given
    rw [after.oneNode mine theirs] at stays
    exact stays gone
  · exact apart other touches given

/-- A store that has gone well leaves behind what was drafted. -/
structure Completed (log : ChangeLog) (draft : Draft) (before after : Contents) : Prop where
  bundles : after.bundles = draft.bundle?
  blobs : after.blobs = draft.contents.blobs
  slots : after.slots = draft.contents.slots
  listed : ∃ written, written.references = before.references ∧
    Chain Contents.Lists log.references written after

theorem Applied.completed (applied : Applied faults threshold log before after)
    (proper : before.Proper) : ∃ cleared draft,
      Drafted faults threshold log before cleared draft ∧ Completed log draft before after := by
  obtain ⟨cleared, draft, bundles, written, deleted, made, gives, wrote, listed⟩ := applied
  have drafted := drafted_of_chains proper deleted made
  have records := Draft.bundles_of_chain gives wrote
  have rest := Draft.written_of_chain gives wrote
  have relisted := Contents.relisted_of_chain listed
  refine ⟨cleared, draft, drafted, ?_⟩
  constructor
  · exact relisted.bundles.trans records
  · exact relisted.blobs.trans rest.blobs
  · exact relisted.slots.trans rest.slots
  · exact ⟨written, rest.references.trans drafted.references, listed⟩

theorem Completed.slotOf (completed : Completed log draft before after) {property : PropertyId}
    {blob : String} (given : draft.contents.SlotOf property blob) : after.SlotOf property blob := by
  unfold Contents.SlotOf
  rw [completed.slots]
  exact given

theorem Applied.slotOf (applied : Applied faults threshold log before after)
    (proper : before.Proper) {property : PropertyId} {blob : String}
    (given : before.SlotOf property blob) : after.SlotOf property blob := by
  obtain ⟨_cleared, _draft, drafted, completed⟩ := applied.completed proper
  exact completed.slotOf ((drafted.spares proper).slotOf given)

/-- A store that has failed leaves records behind as they were or as they were to be. Before the
first of them is written, only blobs have changed; after that, nothing changes but records and
reference lists. -/
inductive Broken (faults : Faults) (threshold : Nat) (log : ChangeLog)
    (before after : Contents) : Prop where
  | early (cleared : Contents) (clears : Contents.Cleared before cleared)
      (bundles : after.bundles = cleared.bundles)
      (spares : Contents.Spares (log.Within cleared) before after)
  | late (cleared : Contents) (draft : Draft)
      (drafted : Drafted faults threshold log before cleared draft)
      (records : ∀ id, after.bundles id = cleared.bundles id ∨ after.bundles id = draft.bundle? id)
      (blobs : after.blobs = draft.contents.blobs)
      (slots : after.slots = draft.contents.slots)

theorem early_of_deleting
    (cut : Breaks (Contents.Deletes faults) Contents.DeletesHalf log.deletedNodes before after)
    (proper : before.Proper) :
    Contents.Cleared before after ∧ Contents.Spares (log.Within after) before after := by
  have clears := Contents.cleared_of_breaks cut proper
  exact ⟨clears, clears.spares.wider (fun _property gone => Or.inl gone)⟩

theorem early_of_staging
    (deleted : Chain (Contents.Deletes faults) log.deletedNodes before cleared)
    (cut : Breaks (Change.Makes faults threshold log.Deletes) (Change.Spoils faults)
      log.changes (Draft.start log.addedNodes cleared) after)
    (proper : before.Proper) :
    Contents.Cleared before cleared ∧ after.bundles = cleared.bundles ∧
      Contents.Spares (log.Within cleared) before after := by
  have clears := Contents.cleared_of_chain deleted proper
  obtain ⟨bundles, spares⟩ := Change.spares_of_breaks cut
    (Draft.start_owns (clears.proper proper))
  refine ⟨clears, bundles, ?_⟩
  exact (clears.spares.wider (fun _property gone => Or.inl gone)).trans
    (spares.wider (fun _property touched => Or.inr touched))

theorem Abandoned.broken (abandoned : Abandoned faults threshold log before after)
    (proper : before.Proper) : Broken faults threshold log before after := by
  cases abandoned with
  | deleting cut =>
      obtain ⟨clears, spares⟩ := early_of_deleting cut proper
      exact Broken.early after clears rfl spares
  | staging cleared deleted cut =>
      obtain ⟨clears, bundles, spares⟩ := early_of_staging deleted cut proper
      exact Broken.early cleared clears bundles spares
  | writing cleared draft bundles deleted made gives cut =>
      have drafted := drafted_of_chains proper deleted made
      have written := Draft.written_of_breaks gives cut
      refine Broken.late cleared draft drafted ?_ written.blobs written.slots
      rw [← drafted.bundles]
      exact written.records
  | listing cleared draft bundles held deleted made gives wrote cut =>
      have drafted := drafted_of_chains proper deleted made
      have written := Draft.written_of_chain gives wrote
      have relisted := Contents.relisted_of_breaks cut
      refine Broken.late cleared draft drafted ?_ (relisted.blobs.trans written.blobs)
        (relisted.slots.trans written.slots)
      rw [relisted.bundles, ← drafted.bundles]
      exact written.records

/-! ### Storage stays proper -/

theorem Contents.Owns.congr {left right : Contents} {records : Records}
    (owns : left.Owns records) (slots : right.slots = left.slots) : right.Owns records := by
  intro property stored found
  have own := owns property stored found
  refine ⟨own.id, own.plain, fun held => ?_⟩
  rw [slots]
  exact own.slots held

theorem Completed.proper (completed : Completed log draft before after)
    (owns : draft.contents.Owns draft.bundle?) : after.Proper := by
  rw [Contents.Proper, completed.bundles]
  exact owns.congr completed.slots

theorem Applied.proper (applied : Applied faults threshold log before after)
    (proper : before.Proper) : after.Proper := by
  obtain ⟨_cleared, _draft, drafted, completed⟩ := applied.completed proper
  exact completed.proper (drafted.owns proper)

theorem Abandoned.proper (abandoned : Abandoned faults threshold log before after)
    (proper : before.Proper) : after.Proper := by
  cases abandoned.broken proper with
  | early cleared clears bundles spares =>
      rw [Contents.Proper, bundles]
      exact fun property stored found =>
        Contents.Owns.later proper spares property stored (clears.entry found)
  | late cleared draft drafted records blobs slots =>
      intro property stored found
      have owns : after.Owns draft.bundle? := (drafted.owns proper).congr slots
      rcases records property.node with kept | written
      · have spares := drafted.spares proper
        rw [entryOf_congr kept] at found
        have own := Contents.Owns.later proper spares property stored (drafted.clears.entry found)
        refine ⟨own.id, own.plain, fun held => ?_⟩
        rw [slots]
        exact own.slots held
      · apply owns property stored
        rw [← entryOf_congr written]
        exact found

/-- A repair takes no entry that is not there before. -/
theorem Contents.Mended.entry (mended : before.Mended after) {property : PropertyId}
    {stored : StoredProperty} (found : entryOf after.bundles property = some stored) :
    entryOf before.bundles property = some stored := by
  cases held : before.bundles property.node with
  | none =>
      rw [entryOf_of_none (mended.absent held)] at found
      cases found
  | some bundle =>
      obtain ⟨children, _fewer, mends⟩ := mended.present held
      rw [entryOf_of_some mends] at found
      rw [entryOf_of_some held]
      exact found

theorem Contents.Mended.proper (mended : before.Mended after) (proper : before.Proper) :
    after.Proper := by
  intro property stored found
  have own := proper property stored (mended.entry found)
  refine ⟨own.id, own.plain, fun slot => ?_⟩
  rw [mended.slots]
  exact own.slots slot

structure Contents.Empty (contents : Contents) : Prop where
  bundles : ∀ id, contents.bundles id = none
  references : ∀ target, contents.references target = none
  blobs : ∀ blob, contents.blobs blob = none

theorem Contents.Empty.proper {contents : Contents} (empty : contents.Empty) :
    contents.Proper := by
  intro property stored found
  exact absurd (empty.bundles property.node) (held_of_entry found)

end BundleStore
