import BundleStore.Proofs.Store.Accounting

set_option autoImplicit false

/-! Passes of a store that may be made in any order. What becomes of a header, of an entry and of its
blobs is settled by the one change that is about it, wherever that change comes; so two lists of the
same changes lead to the same records and the same blobs. -/

namespace BundleStore

variable {faults : Faults} {threshold : Nat}

/-! ### Blob identifiers and stored values -/

/-- Every place of every property has its blob identifier. -/
def Contents.Assigned (contents : Contents) : Prop :=
  ∀ property place, ∃ blob, contents.slots property place = some blob

theorem Contents.Assigned.same {before after : Contents} (assigned : before.Assigned)
    (later : ∀ {property place blob}, before.slots property place = some blob →
      after.slots property place = some blob) : after.slots = before.slots := by
  funext property place
  obtain ⟨blob, given⟩ := assigned property place
  rw [given, later given]

theorem Contents.SlotOf.congr {left right : Contents} {property : PropertyId} {blob : String}
    (given : left.SlotOf property blob) (slots : left.slots = right.slots) :
    right.SlotOf property blob := by
  unfold Contents.SlotOf
  rw [← slots]
  exact given

section

variable {left right : Contents}

/-- What stands for a value is settled by the value and the blob identifier of its place. -/
theorem StoredValue.Keeps.unique {property : PropertyId} {place : Nat} {value : Value}
    {stored other : StoredValue} (slots : left.slots = right.slots)
    (keeps : stored.Keeps left threshold property place value)
    (again : other.Keeps right threshold property place value) : stored = other := by
  cases stored with
  | inline kept =>
      cases other with
      | inline held => rw [keeps.1, again.1]
      | blob blob length =>
          obtain ⟨bytes, binary, large, _counted, _given, _held⟩ := again
          exact absurd (keeps.2 bytes binary) (Nat.not_le.mpr large)
  | blob blob length =>
      obtain ⟨bytes, binary, large, counted, given, _held⟩ := keeps
      cases other with
      | inline held => exact absurd (again.2 bytes binary) (Nat.not_le.mpr large)
      | blob further size =>
          obtain ⟨more, also, _large, sized, slot, _held⟩ := again
          obtain rfl : bytes = more := Value.binary.inj (binary.symm.trans also)
          rw [slots, slot] at given
          rw [counted, sized, Option.some.inj given]

theorem StoredValue.KeepAll.unique {property : PropertyId} {place : Nat} {values : List Value}
    {stored others : List StoredValue} (slots : left.slots = right.slots)
    (keepAll : KeepAll left threshold property place values stored)
    (again : KeepAll right threshold property place values others) : stored = others := by
  induction values generalizing place stored others with
  | nil =>
      cases stored with
      | cons head tail => exact keepAll.elim
      | nil =>
          cases others with
          | cons head tail => exact again.elim
          | nil => rfl
  | cons value rest ih =>
      cases stored with
      | nil => exact keepAll.elim
      | cons head tail =>
          cases others with
          | nil => exact again.elim
          | cons other further =>
              rw [keepAll.1.unique slots again.1, ih keepAll.2 again.2]

namespace StoredProperty.Keeps

variable {state : Property} {stored other : StoredProperty}

theorem unique (slots : left.slots = right.slots) (keeps : stored.Keeps left threshold state)
    (again : other.Keeps right threshold state) : stored = other := by
  have values := keeps.values.unique slots again.values
  cases stored
  cases other
  rw [StoredProperty.mk.injEq]
  exact ⟨keeps.id.trans again.id.symm, keeps.type.trans again.type.symm,
    keeps.multiple.trans again.multiple.symm, keeps.modCount.trans again.modCount.symm, values⟩

theorem same_bytes (keeps : stored.Keeps left threshold state)
    (again : stored.Keeps right threshold state) {blob : String} (own : blob ∈ stored.blobs) :
    left.blobs blob = right.blobs blob := by
  obtain ⟨place, length, found⟩ := mem_blobs.mp own
  obtain ⟨value, there, bytes, binary, _large, _counted, _given, held⟩ :=
    keeps.values.at_place found
  obtain ⟨other, also, more, same, _large, _counted, _given, present⟩ :=
    again.values.at_place found
  obtain rfl : value = other := Option.some.inj (there.symm.trans also)
  obtain rfl : bytes = more := Value.binary.inj (binary.symm.trans same)
  rw [held, present]

end StoredProperty.Keeps

end

/-! ### Records -/

/-- Records are what their headers and entries are. -/
theorem Records.ext {left right : Records}
    (leftFiled : ∀ {id bundle}, left id = some bundle → bundle.id = id ∧ bundle.record = bundle)
    (rightFiled : ∀ {id bundle}, right id = some bundle → bundle.id = id ∧ bundle.record = bundle)
    (headers : headerOf left = headerOf right) (entries : entryOf left = entryOf right) :
    left = right := by
  funext id
  have header : (left id).map Bundle.header = (right id).map Bundle.header := congrFun headers id
  cases onLeft : left id with
  | none =>
      rw [onLeft] at header
      exact (Option.map_eq_none_iff.mp header.symm).symm
  | some bundle =>
      rw [onLeft] at header
      obtain ⟨other, onRight, sameHeader⟩ := Option.map_eq_some_iff.mp header.symm
      have properties : bundle.properties = other.properties := by
        apply SortedMap.ext_find?
        funext name
        have entry := congrFun entries ⟨id, name⟩
        rw [entryOf_of_some onLeft, entryOf_of_some onRight] at entry
        exact entry
      obtain ⟨named, recorded⟩ := leftFiled onLeft
      obtain ⟨otherNamed, otherRecorded⟩ := rightFiled onRight
      unfold Bundle.header at sameHeader
      rw [Header.mk.injEq] at sameHeader
      obtain ⟨parent, nodeType, mixins, children⟩ := sameHeader
      rw [onRight, ← recorded, ← otherRecorded]
      unfold Bundle.record
      rw [named, otherNamed, parent, nodeType, mixins, children, properties]

/-- Every record of the draft is the one of its node. -/
def Draft.Filed (draft : Draft) : Prop :=
  ∀ {id bundle}, draft.bundle? id = some bundle → bundle.id = id ∧ bundle.record = bundle

theorem Draft.Gives.filed {draft : Draft} {bundles : List Bundle} (gives : draft.Gives bundles) :
    draft.Filed := by
  intro id record found
  unfold Draft.bundle? at found
  cases staged : draft.staged id with
  | none =>
      rw [staged] at found
      exact ⟨draft.contents.filed found, draft.contents.recorded found⟩
  | some kept =>
      rw [staged] at found
      obtain rfl : kept = record := Option.some.inj found
      obtain ⟨bundle, _member, rfl, rfl⟩ := (gives id kept).mp staged
      exact ⟨rfl, rfl⟩

theorem Completed.filed {log : ChangeLog} {draft : Draft} {before after : Contents}
    (completed : Completed log draft before after) : draft.Filed := by
  intro id bundle found
  rw [← completed.bundles] at found
  exact ⟨after.filed found, after.recorded found⟩

/-! ### Where two drafts agree -/

/-- The drafts have the same entry of the property, and the same bytes under its blob identifiers. -/
structure Draft.Agrees (property : PropertyId) (left right : Draft) : Prop where
  slots : left.contents.slots = right.contents.slots
  entry : entryOf left.bundle? property = entryOf right.bundle? property
  blobs : ∀ {blob}, left.contents.SlotOf property blob →
    left.contents.blobs blob = right.contents.blobs blob

namespace Draft.Agrees

variable {property : PropertyId} {left middle right : Draft}

theorem symm (agrees : left.Agrees property right) : right.Agrees property left :=
  ⟨agrees.slots.symm, agrees.entry.symm,
    fun given => (agrees.blobs (given.congr agrees.slots.symm)).symm⟩

theorem trans (early : left.Agrees property middle) (late : middle.Agrees property right) :
    left.Agrees property right :=
  ⟨early.slots.trans late.slots, early.entry.trans late.entry,
    fun given => (early.blobs given).trans (late.blobs (given.congr early.slots))⟩

/-- When the old blobs of the property are released in both, the same ones are left. -/
theorem released (agrees : left.Agrees property right) (release : faults.Release)
    {bundle other : Bundle} (held : left.bundle? property.node = some bundle)
    (also : right.bundle? property.node = some other) {onLeft onRight : Contents}
    (leftReleases : Released faults (bundle.blobsOf property.name) left.contents onLeft)
    (rightReleases : Released faults (other.blobsOf property.name) right.contents onRight)
    {blob : String} (given : left.contents.SlotOf property blob) :
    onLeft.blobs blob = onRight.blobs blob := by
  have same : bundle.blobsOf property.name = other.blobsOf property.name := by
    have entry := agrees.entry
    rw [entryOf_of_some held, entryOf_of_some also] at entry
    unfold Bundle.blobsOf
    rw [entry]
  rw [← same] at rightReleases
  by_cases old : blob ∈ bundle.blobsOf property.name
  · rw [leftReleases.gone release blob old, rightReleases.gone release blob old]
  · rw [leftReleases.toTouched.blobs old, rightReleases.toTouched.blobs old]
    exact agrees.blobs given

end Draft.Agrees

/-- Every entry is its property's own, and blob identifiers are settled; those of the properties in
question are apart. -/
structure Draft.Tidy (used : PropertyId → Prop) (draft : Draft) : Prop where
  owns : draft.contents.Owns draft.bundle?
  assigned : draft.contents.Assigned
  unmixed : draft.contents.Unmixed used

namespace Change

variable {gone : NodeId → Prop} {used : PropertyId → Prop} {list : List Change} {change : Change}
  {property : PropertyId} {first last : Draft}

/-- A change makes the same of the property that it touches wherever the same is found. -/
theorem Makes.agrees {left leftAfter right rightAfter : Draft}
    (onLeft : change.Makes faults threshold gone left leftAfter)
    (onRight : change.Makes faults threshold gone right rightAfter) (release : faults.Release)
    (touches : change.Touches gone property) (agrees : left.Agrees property right)
    (leftSlots : leftAfter.contents.slots = left.contents.slots)
    (rightSlots : rightAfter.contents.slots = right.contents.slots) :
    leftAfter.Agrees property rightAfter := by
  have slots : leftAfter.contents.slots = rightAfter.contents.slots := by
    rw [leftSlots, rightSlots, agrees.slots]
  cases change with
  | update node => exact touches.elim
  | put state =>
      obtain ⟨rfl, plain⟩ := touches
      obtain ⟨bundle, _released, stored, held, releases, stores, keeps, found⟩ :=
        (onLeft.puts plain).entry
      obtain ⟨other, _others, again, also, releasesToo, storesToo, keepsToo, foundToo⟩ :=
        (onRight.puts plain).entry
      obtain rfl : stored = again := keeps.unique slots keepsToo
      refine ⟨slots, found.trans foundToo.symm, fun {blob} given => ?_⟩
      -- A blob identifier of the property is written anew, released, or left alone, in both alike.
      by_cases own : blob ∈ stored.blobs
      · exact keeps.same_bytes keepsToo own
      · rw [stores.blobs own, storesToo.blobs own]
        exact agrees.released release held also releases releasesToo (given.congr leftSlots)
  | drop state =>
      obtain ⟨rfl, stays⟩ := touches
      refine ⟨slots, (onLeft.entry_drop stays).trans (onRight.entry_drop stays).symm,
        fun given => ?_⟩
      obtain ⟨bundle, held, releases, _staged⟩ := onLeft.drops stays
      obtain ⟨other, also, releasesToo, _staged⟩ := onRight.drops stays
      exact agrees.released release held also releases releasesToo (given.congr leftSlots)

theorem slots_of_chain (chain : Chain (Makes faults threshold gone) list first last)
    (tidy : first.Tidy used) : last.contents.slots = first.contents.slots :=
  tidy.assigned.same (staged_of_chain chain tidy.owns).2.slots

theorem tidy_of_chain (chain : Chain (Makes faults threshold gone) list first last)
    (tidy : first.Tidy used) : last.Tidy used := by
  have slots := slots_of_chain chain tidy
  refine ⟨(staged_of_chain chain tidy.owns).1, fun property place => ?_,
    fun isLeft isRight left right => ?_⟩
  · rw [slots]
    exact tidy.assigned property place
  · exact tidy.unmixed isLeft isRight (left.congr slots) (right.congr slots)

/-- Changes to other properties leave the property as it is. -/
theorem agrees_of_chain (chain : Chain (Makes faults threshold gone) list first last)
    (tidy : first.Tidy used) (within : ∀ other, AnyTouches gone list other → used other)
    (inUse : used property) (others : ¬ AnyTouches gone list property) :
    first.Agrees property last := by
  have slots := slots_of_chain chain tidy
  refine ⟨slots.symm, (entry_of_chain chain others).symm, fun {blob} given => ?_⟩
  refine ((staged_of_chain chain tidy.owns).2.blobs (fun other touched theirs => ?_)).symm
  have same := tidy.unmixed (within other touched) inUse (theirs.congr slots) given
  exact others (same ▸ touched)

/-- Until its change comes a property is as it was, and afterwards it is as the change has left it. -/
theorem pivot_of_chain (chain : Chain (Makes faults threshold gone) list first last)
    (subjects : (list.map subject).Nodup) (tidy : first.Tidy used)
    (within : ∀ other, AnyTouches gone list other → used other) (member : change ∈ list)
    (touches : change.Touches gone property) :
    ∃ before after, change.Makes faults threshold gone before after ∧
      after.contents.slots = before.contents.slots ∧ first.Agrees property before ∧
      after.Agrees property last := by
  have inUse : used property := within property ⟨change, member, touches⟩
  obtain ⟨early, late, rfl⟩ := List.append_of_mem member
  obtain ⟨before, after, earlier, makes, later⟩ := chain.around
  have others {part : List Change} (apart : ∀ other ∈ part, other.subject ≠ change.subject) :
      ¬ AnyTouches gone part property := by
    rintro ⟨other, listed, touched⟩
    exact apart other listed (touched.subject.trans touches.subject.symm)
  obtain ⟨fromEarly, fromLate⟩ := subjects_apart subjects
  have tidyBefore := tidy_of_chain earlier tidy
  have single := Chain.cons makes (Chain.nil after)
  refine ⟨before, after, makes, slots_of_chain single tidyBefore, ?_, ?_⟩
  · refine agrees_of_chain earlier tidy (fun other touched => within other ?_) inUse
      (others fromEarly)
    obtain ⟨change, listed, touched⟩ := touched
    exact ⟨change, List.mem_append_left _ listed, touched⟩
  · refine agrees_of_chain later (tidy_of_chain single tidyBefore)
      (fun other touched => within other ?_) inUse (others fromLate)
    obtain ⟨change, listed, touched⟩ := touched
    exact ⟨change, List.mem_append_right _ (List.mem_cons_of_mem _ listed), touched⟩

/-! ### The same changes in another order -/

section

variable {left right : List Change} {leftLast rightLast : Draft}

theorem AnyTouches.perm (perm : left.Perm right) (touched : AnyTouches gone left property) :
    AnyTouches gone right property := by
  obtain ⟨change, member, touches⟩ := touched
  exact ⟨change, perm.mem_iff.mp member, touches⟩

theorem agrees_of_perm (perm : left.Perm right)
    (onLeft : Chain (Makes faults threshold gone) left first leftLast)
    (onRight : Chain (Makes faults threshold gone) right first rightLast)
    (subjects : (left.map subject).Nodup) (release : faults.Release)
    (tidy : first.Tidy (AnyTouches gone left)) (touched : AnyTouches gone left property) :
    leftLast.Agrees property rightLast := by
  obtain ⟨change, member, touches⟩ := touched
  obtain ⟨before, _after, makes, slots, reached, leaves⟩ :=
    pivot_of_chain onLeft subjects tidy (fun _other touched => touched) member touches
  obtain ⟨other, _later, makesToo, slotsToo, reachedToo, leavesToo⟩ :=
    pivot_of_chain onRight ((perm.map subject).nodup_iff.mp subjects) tidy
      (fun _other touched => touched.perm perm.symm) (perm.mem_iff.mp member) touches
  have start : before.Agrees property other := reached.symm.trans reachedToo
  exact leaves.symm.trans
    ((makes.agrees makesToo release touches start slots slotsToo).trans leavesToo)

theorem headers_of_perm (perm : left.Perm right)
    (onLeft : Chain (Makes faults threshold gone) left first leftLast)
    (onRight : Chain (Makes faults threshold gone) right first rightLast)
    (subjects : (left.map subject).Nodup) :
    headerOf leftLast.bundle? = headerOf rightLast.bundle? := by
  funext id
  by_cases updated : ∃ node : Node, .update node ∈ left ∧ node.id = id
  · obtain ⟨node, member, rfl⟩ := updated
    rw [updated_of_chain onLeft subjects member, updated_of_chain onRight
      ((perm.map subject).nodup_iff.mp subjects) (perm.mem_iff.mp member)]
  · rw [header_of_chain onLeft (fun node member named => updated ⟨node, member, named⟩),
      header_of_chain onRight
        (fun node member named => updated ⟨node, perm.mem_iff.mpr member, named⟩)]

theorem entries_of_perm (perm : left.Perm right)
    (onLeft : Chain (Makes faults threshold gone) left first leftLast)
    (onRight : Chain (Makes faults threshold gone) right first rightLast)
    (subjects : (left.map subject).Nodup) (release : faults.Release)
    (tidy : first.Tidy (AnyTouches gone left)) :
    entryOf leftLast.bundle? = entryOf rightLast.bundle? := by
  funext property
  by_cases touched : AnyTouches gone left property
  · exact (agrees_of_perm perm onLeft onRight subjects release tidy touched).entry
  · rw [entry_of_chain onLeft touched,
      entry_of_chain onRight (fun others => touched (others.perm perm.symm))]

/-- Changes made in another order write and release the same blobs. -/
theorem contents_of_perm (perm : left.Perm right)
    (onLeft : Chain (Makes faults threshold gone) left first leftLast)
    (onRight : Chain (Makes faults threshold gone) right first rightLast)
    (subjects : (left.map subject).Nodup) (release : faults.Release)
    (tidy : first.Tidy (AnyTouches gone left)) : leftLast.contents = rightLast.contents := by
  obtain ⟨leftBundles, leftReferences⟩ := aside_of_chain onLeft
  obtain ⟨rightBundles, rightReferences⟩ := aside_of_chain onRight
  have leftSlots := slots_of_chain onLeft tidy
  have rightSlots := slots_of_chain onRight tidy
  refine Contents.ext (leftBundles.trans rightBundles.symm)
    (leftReferences.trans rightReferences.symm) ?_ (leftSlots.trans rightSlots.symm)
  funext blob
  by_cases touched : ∃ property, AnyTouches gone left property ∧ first.contents.SlotOf property blob
  · obtain ⟨property, touched, given⟩ := touched
    exact (agrees_of_perm perm onLeft onRight subjects release tidy touched).blobs
      (given.congr leftSlots.symm)
  · rw [(staged_of_chain onLeft tidy.owns).2.blobs, (staged_of_chain onRight tidy.owns).2.blobs]
    · exact fun property others given =>
        touched ⟨property, others.perm perm.symm, given.congr rightSlots⟩
    · exact fun property near given => touched ⟨property, near, given.congr leftSlots⟩

end

end Change

/-! ### The other passes in another order -/

namespace Contents

variable {before after : Contents} {blob : String}

theorem Deletes.blobs_none {node : Node} (deletes : Deletes faults node before after)
    (absent : before.blobs blob = none) : after.blobs blob = none := by
  obtain ⟨_bundle, _held, released⟩ := deletes
  rcases released.fewer blob with gone | same
  · exact gone
  · exact same.trans absent

/-- The blobs of a record go with it. -/
theorem released_of_chain {nodes : List Node} (chain : Chain (Deletes faults) nodes before after)
    (release : faults.Release) {node : Node} (member : node ∈ nodes) {bundle : Bundle}
    (held : before.bundles node.id = some bundle) (own : blob ∈ bundle.blobs) :
    after.blobs blob = none := by
  induction chain with
  | nil state => cases member
  | @cons other rest first next last head tail ih =>
      by_cases same : node.id = other.id
      · refine tail.preserves (fun now => now.blobs blob = none)
          (fun _node _member _now _next deletes absent => deletes.blobs_none absent) ?_
        obtain ⟨found, there, released⟩ := head
        rw [← same, held] at there
        obtain rfl := Option.some.inj there
        exact released.gone release blob own
      · rcases List.mem_cons.mp member with rfl | later
        · exact absurd rfl same
        · refine ih later ?_
          rw [head.bundles, Function.update_of_ne same]
          exact held

theorem unreleased_of_chain {nodes : List Node} (chain : Chain (Deletes faults) nodes before after)
    (others : ∀ node ∈ nodes, ∀ bundle, before.bundles node.id = some bundle →
      blob ∉ bundle.blobs) : after.blobs blob = before.blobs blob := by
  induction chain with
  | nil state => rfl
  | @cons node rest first next last head tail ih =>
      have bundles := head.bundles
      obtain ⟨bundle, held, released⟩ := head
      rw [ih, released.toTouched.blobs (others node List.mem_cons_self bundle held)]
      · rfl
      · intro other member kept found
        rw [bundles] at found
        by_cases same : other.id = node.id
        · rw [same, Function.update_self] at found
          cases found
        · rw [Function.update_of_ne same] at found
          exact others other (List.mem_cons_of_mem _ member) kept found

theorem cleared_of_perm {left right : List Node} {leftAfter rightAfter : Contents}
    (perm : left.Perm right) (onLeft : Chain (Deletes faults) left before leftAfter)
    (onRight : Chain (Deletes faults) right before rightAfter) (release : faults.Release)
    (proper : before.Proper) (assigned : before.Assigned) : leftAfter = rightAfter := by
  have leftClears := cleared_of_chain onLeft proper
  have rightClears := cleared_of_chain onRight proper
  refine Contents.ext ?_ (leftClears.references.trans rightClears.references.symm) ?_
    ((assigned.same leftClears.spares.slots).trans (assigned.same rightClears.spares.slots).symm)
  · funext id
    by_cases deleted : ∃ node ∈ left, node.id = id
    · obtain ⟨node, member, rfl⟩ := deleted
      rw [absent_of_chain onLeft member, absent_of_chain onRight (perm.mem_iff.mp member)]
    · rw [kept_of_chain onLeft (fun node member named => deleted ⟨node, member, named⟩),
        kept_of_chain onRight
          (fun node member named => deleted ⟨node, perm.mem_iff.mpr member, named⟩)]
  · funext blob
    by_cases goes : ∃ node ∈ left, ∃ bundle, before.bundles node.id = some bundle ∧
        blob ∈ bundle.blobs
    · obtain ⟨node, member, bundle, held, own⟩ := goes
      rw [released_of_chain onLeft release member held own,
        released_of_chain onRight release (perm.mem_iff.mp member) held own]
    · rw [unreleased_of_chain onLeft (fun node member bundle held own =>
          goes ⟨node, member, bundle, held, own⟩),
        unreleased_of_chain onRight (fun node member bundle held own =>
          goes ⟨node, perm.mem_iff.mpr member, bundle, held, own⟩)]

theorem listed_of_perm {left right : List References} {other leftAfter rightAfter : Contents}
    (perm : left.Perm right) (onLeft : Chain Lists left before leftAfter)
    (onRight : Chain Lists right other rightAfter)
    (targets : (left.map References.target).Nodup) (same : before.references = other.references) :
    leftAfter.references = rightAfter.references := by
  funext target
  by_cases listed : ∃ references ∈ left, references.target = target
  · obtain ⟨references, member, rfl⟩ := listed
    rw [listed_of_chain onLeft targets member, listed_of_chain onRight
      ((perm.map References.target).nodup_iff.mp targets) (perm.mem_iff.mp member)]
  · rw [unlisted_of_chain onLeft (fun references member named => listed ⟨references, member, named⟩),
      unlisted_of_chain onRight (fun references member named =>
        listed ⟨references, perm.mem_iff.mpr member, named⟩), same]

end Contents

theorem Draft.start_perm {left right : List Node} (perm : left.Perm right)
    (once : ∀ {node other}, node ∈ left → other ∈ left → node.id = other.id → node = other)
    (contents : Contents) : start left contents = start right contents := by
  refine congrArg (Draft.mk · contents) (funext fun id => ?_)
  rcases added_cases left (fun _ => none) id with ⟨node, member, named, found⟩ | ⟨others, same⟩
  · rcases added_cases right (fun _ => none) id with ⟨other, listed, also, there⟩ | ⟨without, _same⟩
    · obtain rfl : node = other := once member (perm.mem_iff.mpr listed) (named.trans also.symm)
      rw [found, there]
    · exact absurd named (without node (perm.mem_iff.mp member))
  · rcases added_cases right (fun _ => none) id with ⟨other, listed, also, _there⟩ | ⟨_without, again⟩
    · exact absurd also (others other (perm.mem_iff.mpr listed))
    · rw [same, again]

end BundleStore
