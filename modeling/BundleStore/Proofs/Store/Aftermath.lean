import BundleStore.Proofs.Store.Accounting

set_option autoImplicit false

/-! What can be read after a store that failed. Blobs are released and written while their records
are only staged. Where the record of a property that is kept in blobs is not written any more, the
record that stays is without those that the log has already released or written over, and the
property is not read any more as it was. All else reads as its record was written. -/

namespace BundleStore

namespace ChangeLog

/-- Of all that the log says of the property, this is said last. -/
def PutsLast (log : ChangeLog) (state : Property) : Prop :=
  ∃ early late, log.changes = early ++ .put state :: late ∧
    ¬ Change.AnyTouches log.Deletes late state.id

/-- The entry of the property is from before the store. -/
def Leaves (log : ChangeLog) (before after : Contents) (property : PropertyId) : Prop :=
  after.bundles property.node = before.bundles property.node ∨ ¬ log.Touches property

/-- A blob of the property's entry belongs to a property that the log touches: to another one, or
to this one while its record is the one from before; and where the entry is from before, the blob
is gone or another one by now. -/
def Endangers (log : ChangeLog) (before after : Contents) (property : PropertyId) : Prop :=
  ∃ stored blob other, entryOf after.bundles property = some stored ∧ blob ∈ stored.blobs ∧
    log.Touches other ∧ after.SlotOf other blob ∧
    (other = property → after.bundles property.node = before.bundles property.node) ∧
    (log.Leaves before after property → after.blobs blob ≠ before.blobs blob)

/-- What the records that are there were written with is what is read. Of the entries from before that
could be read, just the endangered ones are not read any more as they were. For a rewritten entry it
is enough not to be endangered. -/
structure Aftermath (log : ChangeLog) (before after : Contents)
    (reads : PropertyId → Except RepositoryError Property) : Prop where
  kept : ∀ property stored, entryOf after.bundles property = some stored →
    ¬ log.Endangers before after property → log.Leaves before after property →
    reads property = before.property property ∧
      ∀ blob ∈ stored.blobs, after.blobs blob = before.blobs blob
  unread : ∀ property state, log.Endangers before after property →
    log.Leaves before after property → before.property property = .ok state →
    reads property ≠ .ok state
  rewritten : ∀ property stored, entryOf after.bundles property = some stored →
    ¬ log.Endangers before after property → ¬ log.Leaves before after property →
    ∃ state, log.PutsLast state ∧ state.id = property ∧
      reads property = .ok { state with status := .existing } ∧
      ∀ blob ∈ stored.blobs, ∃ bytes, after.blobs blob = some bytes ∧ .binary bytes ∈ state.values
  identity : ∀ id bundle name state, after.bundles id = some bundle →
    bundle.identityState? name = some state → reads ⟨id, name⟩ = .ok state

end ChangeLog

theorem Change.AnyTouches.last {gone : NodeId → Prop} {list : List Change} {property : PropertyId}
    (touches : AnyTouches gone list property) :
    ∃ early change late, list = early ++ change :: late ∧ change.Touches gone property ∧
      ¬ AnyTouches gone late property := by
  induction list with
  | nil =>
      obtain ⟨_change, member, _touched⟩ := touches
      cases member
  | cons head rest ih =>
      by_cases later : AnyTouches gone rest property
      · obtain ⟨early, change, late, split, touched, last⟩ := ih later
        refine ⟨head :: early, change, late, ?_, touched, last⟩
        rw [split]
        rfl
      · obtain ⟨change, member, touched⟩ := touches
        rcases List.mem_cons.mp member with rfl | further
        · exact ⟨[], change, rest, rfl, touched, later⟩
        · exact absurd ⟨change, further, touched⟩ later

/-- A property that has been touched and is in the draft has been put last. -/
theorem Drafted.puts_last {faults : Faults} {threshold : Nat} {log : ChangeLog}
    {before cleared : Contents} {draft : Draft}
    (drafted : Drafted faults threshold log before cleared draft) {property : PropertyId}
    (touches : log.Touches property) {stored : StoredProperty}
    (drawn : entryOf draft.bundle? property = some stored) :
    ∃ state, log.PutsLast state ∧ state.id = property := by
  obtain ⟨early, change, late, split, touched, last⟩ := touches.last
  cases change with
  | update node => exact touched.elim
  | put state =>
      obtain ⟨rfl, _plain⟩ := touched
      exact ⟨state, ⟨early, late, split, last⟩, rfl⟩
  | drop state =>
      obtain ⟨rfl, stays⟩ := touched
      rw [drafted.entry_drop split last stays] at drawn
      cases drawn

namespace Contents

variable {contents : Contents}

theorem values_at {list : List StoredValue} {values : List Value}
    (read : list.mapM contents.value = .ok values) {place : Nat} {stored : StoredValue}
    (found : list[place]? = some stored) :
    ∃ value, values[place]? = some value ∧ contents.value stored = .ok value := by
  induction list generalizing values place with
  | nil => cases found
  | cons head tail ih =>
      obtain ⟨value, rest, first, others, rfl⟩ := values_cons read
      cases place with
      | zero =>
          obtain rfl : head = stored := Option.some.inj found
          exact ⟨value, rfl, first⟩
      | succ place => exact ih others found

/-- Where a blob stands in an entry that can be read, its bytes stand in the property. -/
theorem blob_at {stored : StoredProperty} {state : Property}
    (read : contents.stateOf stored = .ok state) {place : Nat} {blob : String} {length : UInt64}
    (found : stored.values[place]? = some (.blob blob length)) :
    ∃ bytes, contents.blobs blob = some bytes ∧ state.values[place]? = some (.binary bytes) := by
  obtain ⟨list, values, rfl⟩ := stateOf_ok read
  obtain ⟨value, listed, reads⟩ := values_at values found
  obtain ⟨bytes, there, rfl⟩ := value_blob reads
  exact ⟨bytes, there, listed⟩

/-- The blobs of an entry that can be read are there, with the bytes that are read. -/
theorem blobs_of_state {stored : StoredProperty} {state : Property}
    (read : contents.stateOf stored = .ok state) {blob : String} (own : blob ∈ stored.blobs) :
    ∃ bytes, contents.blobs blob = some bytes ∧ .binary bytes ∈ state.values := by
  obtain ⟨place, length, found⟩ := StoredProperty.mem_blobs.mp own
  obtain ⟨bytes, there, listed⟩ := blob_at read found
  exact ⟨bytes, there, List.mem_of_getElem? listed⟩

theorem stateOf_of_property {property : PropertyId} {stored : StoredProperty} {state : Property}
    (found : entryOf contents.bundles property = some stored)
    (read : contents.property property = .ok state) : contents.stateOf stored = .ok state := by
  rw [property_of_entry found] at read
  cases reads : contents.stateOf stored with
  | error error =>
      rw [reads] at read
      cases read
  | ok found =>
      rw [reads] at read
      cases read
      rfl

/-- An entry is read the same only from the same blobs. -/
theorem blobs_of_same_state {other : Contents} {stored : StoredProperty} {state : Property}
    (read : contents.stateOf stored = .ok state) (again : other.stateOf stored = .ok state)
    {blob : String} (own : blob ∈ stored.blobs) : contents.blobs blob = other.blobs blob := by
  obtain ⟨place, length, found⟩ := StoredProperty.mem_blobs.mp own
  obtain ⟨bytes, here, listed⟩ := blob_at read found
  obtain ⟨others, there, listedAgain⟩ := blob_at again found
  obtain rfl : bytes = others :=
    Value.binary.inj (Option.some.inj (listed.symm.trans listedAgain))
  exact here.trans there.symm

end Contents

namespace Broken

variable {faults : Faults} {threshold : Nat} {log : ChangeLog} {before after : Contents}

/-- Blobs are spared but those within the log's reach. An entry that the log does not touch is from
before, and its record has never been deleted. -/
theorem untouched (broken : Broken faults threshold log before after) (proper : before.Proper) :
    ∃ cleared, Contents.Spares (log.Within cleared) before after ∧
      ∀ property stored, entryOf after.bundles property = some stored → ¬ log.Touches property →
        entryOf before.bundles property = some stored ∧ cleared.bundles property.node ≠ none := by
  cases broken with
  | early cleared clears bundles spares =>
      refine ⟨cleared, spares, fun property stored found _untouched => ?_⟩
      rw [bundles] at found
      exact ⟨clears.entry found, held_of_entry found⟩
  | late cleared draft drafted records blobs slots =>
      have wrote : Contents.Spares (log.Within cleared) draft.contents after :=
        ⟨fun _out => by rw [blobs], fun given => by rw [slots]; exact given⟩
      refine ⟨cleared, (drafted.spares proper).trans wrote, fun property stored found other => ?_⟩
      have inCleared : entryOf cleared.bundles property = some stored := by
        rcases records property.node with same | written
        · rw [← entryOf_congr same]
          exact found
        · apply Draft.start_entry log.addedNodes
          rw [← Change.entry_of_chain drafted.made other, ← entryOf_congr written]
          exact found
      exact ⟨drafted.clears.entry inCleared, held_of_entry inCleared⟩

theorem left (broken : Broken faults threshold log before after) (proper : before.Proper)
    {property : PropertyId} {stored : StoredProperty}
    (found : entryOf after.bundles property = some stored)
    (leaves : log.Leaves before after property) : entryOf before.bundles property = some stored := by
  rcases leaves with same | untouched
  · exact (entryOf_congr same).symm.trans found
  · obtain ⟨_cleared, _spares, others⟩ := broken.untouched proper
    exact (others property stored found untouched).1

theorem kept (broken : Broken faults threshold log before after) (proper : before.Proper)
    {property : PropertyId} {stored : StoredProperty}
    (found : entryOf after.bundles property = some stored)
    (safe : ¬ log.Endangers before after property) (leaves : log.Leaves before after property)
    {blob : String} (own : blob ∈ stored.blobs) : after.blobs blob = before.blobs blob := by
  obtain ⟨cleared, spares, others⟩ := broken.untouched proper
  by_contra differs
  by_cases touches : log.Touches property
  · have same := leaves.resolve_right (fun untouched => untouched touches)
    have slot := spares.slotOf
      ((proper property stored (broken.left proper found leaves)).slotOf own)
    exact safe ⟨stored, blob, property, found, own, touches, slot, fun _self => same,
      fun _leaves => differs⟩
  · obtain ⟨earlier, stays⟩ := others property stored found touches
    refine differs (spares.blobs_of_entry proper earlier stays own (fun other touched given => ?_))
    exact safe ⟨stored, blob, other, found, own, touched, given,
      fun same => absurd (same ▸ touched) touches, fun _leaves => differs⟩

/-- An endangered entry from before is not read any more as it was. -/
theorem unread (broken : Broken faults threshold log before after) (proper : before.Proper)
    {property : PropertyId} {state : Property} (endangers : log.Endangers before after property)
    (leaves : log.Leaves before after property) (read : before.property property = .ok state) :
    after.property property ≠ .ok state := by
  intro again
  obtain ⟨stored, blob, _other, found, own, _touches, _slot, _record, differs⟩ := endangers
  have earlier := broken.left proper found leaves
  exact differs leaves (Contents.blobs_of_same_state (Contents.stateOf_of_property found again)
    (Contents.stateOf_of_property earlier read) own)

theorem rewritten (broken : Broken faults threshold log before after) (proper : before.Proper)
    {property : PropertyId} {stored : StoredProperty}
    (found : entryOf after.bundles property = some stored)
    (safe : ¬ log.Endangers before after property)
    (fresh : ¬ log.Leaves before after property) :
    ∃ state, log.PutsLast state ∧ state.id = property ∧
      after.stateOf stored = .ok { state with status := .existing } := by
  have differs : after.bundles property.node ≠ before.bundles property.node :=
    fun same => fresh (Or.inl same)
  have touches : log.Touches property := by
    by_contra untouched
    exact fresh (Or.inr untouched)
  have uncleared {cleared : Contents} (clears : Contents.Cleared before cleared)
      (same : after.bundles property.node = cleared.bundles property.node) : False := by
    rcases clears.records property.node with gone | kept
    · exact held_of_entry found (same.trans gone)
    · exact differs (same.trans kept)
  cases broken with
  | early cleared clears bundles spares => exact (uncleared clears (congrFun bundles _)).elim
  | late cleared draft drafted records blobs slots =>
      rcases records property.node with same | written
      · exact (uncleared drafted.clears same).elim
      · have drawn : entryOf draft.bundle? property = some stored :=
          (entryOf_congr written).symm.trans found
        obtain ⟨state, ⟨early, late, split, last⟩, rfl⟩ := drafted.puts_last touches drawn
        refine ⟨state, ⟨early, late, split, last⟩, rfl, ?_⟩
        have plain := (drafted.owns proper state.id stored drawn).plain
        obtain ⟨put, there, reads⟩ := drafted.entry_put proper split last plain
        obtain rfl : put = stored := Option.some.inj (there.symm.trans drawn)
        rw [← reads]
        · exact Contents.stateOf_congr (fun blob _own => by rw [blobs])
        · intro other touched blob own given
          by_contra another
          have slot : after.SlotOf other blob := by
            unfold Contents.SlotOf
            rw [slots]
            exact given
          exact safe ⟨put, blob, other, found, own, touched, slot,
            fun same => absurd same another, fun leaves => absurd leaves fresh⟩

theorem aftermath (broken : Broken faults threshold log before after) (proper : before.Proper)
    (properAfter : after.Proper) : log.Aftermath before after after.property := by
  constructor
  case kept =>
    intro property stored found safe leaves
    have blobs : ∀ blob ∈ stored.blobs, after.blobs blob = before.blobs blob :=
      fun blob own => broken.kept proper found safe leaves own
    constructor
    · rw [Contents.property_of_entry found,
        Contents.property_of_entry (broken.left proper found leaves), Contents.stateOf_congr blobs]
    · exact blobs
  case unread =>
    intro property state endangers leaves read
    exact broken.unread proper endangers leaves read
  case rewritten =>
    intro property stored found safe fresh
    obtain ⟨state, last, named, reads⟩ := broken.rewritten proper found safe fresh
    refine ⟨state, last, named, ?_, fun blob own => Contents.blobs_of_state reads own⟩
    rw [Contents.property_of_entry found, reads]
    rfl
  case identity =>
    intro id bundle name state held identity
    exact Contents.property_of_identity properAfter held identity

end Broken

/-- Whatever has failed, once no call fails any more every property of every record that is there
reads as the record was written, but for those that the store has endangered: of these, what is
from before is not read as it was. -/
theorem System.aftermath_of_store (backend : Backend) (system : System backend)
    (reachable : system.Reachable) (threshold : Nat) (log : ChangeLog) (error : RepositoryError)
    (after : System backend)
    (failed : (Repository.store threshold log).run serve system = (.error error, after))
    (mended : Backend) (reliable : mended.FailsOnly Faults.none) (storage : mended.State)
    (same : mended.contents storage = after.contents) (requests : List Request) :
    log.Aftermath system.contents after.contents
      (ask requests (⟨storage, after.cache⟩ : System mended)).property := by
  obtain ⟨rest, proper⟩ := reachable.atRest
  obtain ⟨restAfter, abandoned⟩ := rest.store backend.failsOnly_any threshold log failed
  obtain ⟨restAsked, unchanged⟩ := (restAfter.moved same).ask requests
  have reads : (ask requests (⟨storage, after.cache⟩ : System mended)).property =
      after.contents.property := by
    funext property
    rw [restAsked.property reliable, unchanged]
    exact congrArg (fun contents => contents.property property) same
  rw [reads]
  exact (abandoned.broken proper).aftermath proper (abandoned.proper proper)

namespace System

def other : NodeId := ⟨[0, 0, 0, 0, 0, 0, 0, 0, 0, 0, 0, 0, 0, 0, 0, 1], rfl⟩

/-- A property of a node that is not there. -/
def strayLog : ChangeLog :=
  { ChangeLog.empty with
    added := [.property (Property.single ⟨other, ⟨"", "letter"⟩⟩ (.long 1))] }

def afterStray : System MemoryStorage.backend :=
  ((Repository.store 2 strayLog).run serve afterLetter).2

set_option maxRecDepth 2500 in
theorem stray_fails : (Repository.store 2 strayLog).run serve afterLetter =
    (.error (.notFound (.node other)), afterStray) :=
  Prod.ext (by decide +kernel) rfl

theorem afterLetter_reachable : afterLetter.Reachable :=
  blank_reachable.write 2 (.store letterLog)

theorem strayLog_touches {property : PropertyId} (touches : strayLog.Touches property) :
    property.node = other := by
  obtain ⟨change, member, touched⟩ := touches
  obtain rfl : change = .put (Property.single ⟨other, ⟨"", "letter"⟩⟩ (.long 1)) :=
    List.mem_singleton.mp member
  rw [← touched.1]
  rfl

theorem letter_safe :
    ¬ strayLog.Endangers afterLetter.contents afterStray.contents letter := by
  intro given
  obtain ⟨stored, blob, property, found, own, touches, ⟨_other, theirs⟩, _rest⟩ := given
  obtain ⟨rest, proper⟩ := afterLetter_reachable.atRest
  have abandoned := (rest.store MemoryStorage.backend_failsOnly 2 strayLog stray_fails).2
  obtain ⟨_place, mine⟩ := (abandoned.proper proper letter stored found).slotOf own
  have same := afterStray.contents.oneNode theirs mine
  rw [strayLog_touches touches] at same
  exact absurd same (by decide)

set_option maxRecDepth 2500 in
theorem letter_kept :
    (ask [.loadNode NodeId.zero] afterStray).property letter = afterLetter.contents.property letter :=
  have left : (entryOf afterStray.contents.bundles letter).isSome = true := by decide +kernel
  have aftermath := aftermath_of_store MemoryStorage.backend afterLetter afterLetter_reachable 2
    strayLog (.notFound (.node other)) afterStray stray_fails MemoryStorage.backend
    MemoryStorage.backend_failsOnly afterStray.storage rfl [.loadNode NodeId.zero]
  (aftermath.kept letter _ (Option.some_get left).symm letter_safe
    (Or.inl (by decide +kernel))).1

/-- The same, and the letter is to be another one. -/
def rewriteLog : ChangeLog :=
  { strayLog with modified := [.property (Property.single letter (.long 5))] }

def afterRewrite : System MemoryStorage.backend :=
  ((Repository.store 2 rewriteLog).run serve afterLetter).2

set_option maxRecDepth 2500 in
/-- The record of the letter stays as it was, but its blob is gone. -/
theorem letter_lost :
    ((Repository.store 2 rewriteLog).run serve afterLetter).1 = .error (.notFound (.node other)) ∧
      afterRewrite.contents.bundles NodeId.zero = afterLetter.contents.bundles NodeId.zero ∧
      afterLetter.property letter =
        .ok { Property.single letter (.binary [1, 2, 3]) with status := .existing } ∧
      afterRewrite.property letter =
        .error (.storage (.blobNotFound "00/00/0000000000000000000000000000/letter.0")) := by
  exact ⟨by decide +kernel, by decide +kernel, by decide +kernel, by decide +kernel⟩

end System

/-! ### What is lost -/

/-- The blob is gone, or holds bytes that one of the changes has put. -/
def Change.Loses (list : List Change) (blob : String) (contents : Contents) : Prop :=
  ∀ bytes, contents.blobs blob = some bytes → ∃ state, .put state ∈ list ∧ .binary bytes ∈ state.values

namespace Change.Makes

variable {faults : Faults} {threshold : Nat} {gone : NodeId → Prop} {list : List Change}
  {change : Change} {before after : Draft} {blob : String}

/-- What has been released for a change comes back only by what the change puts. -/
theorem loses_of_released {state : Property} {released : Contents} {stored : StoredProperty}
    (member : .put state ∈ list) (loses : Loses list blob released)
    (stores : Contents.Touched (fun blob => blob ∈ stored.blobs) released after.contents)
    (keeps : stored.Keeps after.contents threshold state) : Loses list blob after.contents := by
  intro bytes there
  by_cases own : blob ∈ stored.blobs
  · obtain ⟨place, length, found⟩ := StoredProperty.mem_blobs.mp own
    obtain ⟨value, listed, held, rfl, _large, _counted, _given, present⟩ :=
      keeps.values.at_place found
    obtain rfl : held = bytes := Option.some.inj (present.symm.trans there)
    exact ⟨state, member, List.mem_of_getElem? listed⟩
  · rw [stores.blobs own] at there
    exact loses bytes there

theorem loses (makes : change.Makes faults threshold gone before after) (member : change ∈ list)
    (loses : Loses list blob before.contents) : Loses list blob after.contents := by
  have fewer {old : List String} {released : Contents}
      (releases : Released faults old before.contents released) : Loses list blob released := by
    intro bytes there
    rcases releases.fewer blob with gone | same
    · rw [gone] at there
      cases there
    · exact loses bytes (same.symm.trans there)
  cases change with
  | update node =>
      obtain ⟨_bundle, _held, rfl⟩ := makes
      exact loses
  | put state =>
      rcases makes with ⟨_identity, rfl⟩ | ⟨_plain, placed⟩
      · exact loses
      · obtain ⟨_bundle, _released, _stored, _held, releases, stores, keeps, _found⟩ := placed.entry
        exact loses_of_released member (fewer releases) stores keeps
  | drop state =>
      rcases makes with ⟨_gone, rfl⟩ | ⟨_stays, _bundle, _held, releases, _staged⟩
      · exact loses
      · exact fewer releases

theorem loses_touched (makes : change.Makes faults threshold gone before after)
    (release : faults.Release) (member : change ∈ list) {property : PropertyId}
    (touched : change.Touches gone property) {stored : StoredProperty}
    (found : entryOf before.bundle? property = some stored) (own : blob ∈ stored.blobs) :
    Loses list blob after.contents := by
  have gone {name : Name} {bundle : Bundle} {released : Contents} (named : property.name = name)
      (held : before.bundle? property.node = some bundle)
      (releases : Released faults (bundle.blobsOf name) before.contents released) :
      Loses list blob released := by
    subst named
    intro bytes there
    exact absurd own ((released_of_entry held releases release there).2 stored found)
  cases change with
  | update node => exact touched.elim
  | put state =>
      obtain ⟨rfl, plain⟩ := touched
      obtain ⟨_bundle, _released, _stored, held, releases, stores, keeps, _found⟩ :=
        (makes.puts plain).entry
      exact loses_of_released member (gone rfl held releases) stores keeps
  | drop state =>
      obtain ⟨rfl, stays⟩ := touched
      obtain ⟨_bundle, held, releases, _staged⟩ := makes.drops stays
      exact gone rfl held releases

end Change.Makes

theorem Change.loses_of_chain {faults : Faults} {threshold : Nat} {gone : NodeId → Prop}
    {list : List Change} {first last : Draft}
    (chain : Chain (Makes faults threshold gone) list first last) (release : faults.Release)
    {property : PropertyId} (touches : AnyTouches gone list property) {stored : StoredProperty}
    (found : entryOf first.bundle? property = some stored) {blob : String}
    (own : blob ∈ stored.blobs) : Loses list blob last.contents := by
  obtain ⟨change, member, touched⟩ := touches
  obtain ⟨early, late, split⟩ := List.append_of_mem member
  have within {other : Change} (listed : other ∈ early ∨ other ∈ late) : other ∈ list := by
    rw [split]
    rcases listed with sooner | later
    · exact List.mem_append_left _ sooner
    · exact List.mem_append_right _ (List.mem_cons_of_mem _ later)
  have parts := chain
  rw [split] at parts
  obtain ⟨middle, _next, before, makes, after⟩ := parts.around
  -- Until the change comes, the entry is as it was, or its blobs are already lost.
  have either : entryOf middle.bundle? property = some stored ∨ Loses list blob middle.contents := by
    refine before.preserves (fun draft =>
      entryOf draft.bundle? property = some stored ∨ Loses list blob draft.contents) ?_ (Or.inl found)
    intro other listed now next makes so
    rcases so with still | loses
    · by_cases isTouched : other.Touches gone property
      · exact Or.inr (makes.loses_touched release (within (Or.inl listed)) isTouched still own)
      · exact Or.inl ((makes.entry_untouched isTouched).trans still)
    · exact Or.inr (makes.loses (within (Or.inl listed)) loses)
  refine after.preserves (fun draft => Loses list blob draft.contents) (fun other listed _now _next
    makes loses => makes.loses (within (Or.inr listed)) loses) ?_
  rcases either with still | loses
  · exact makes.loses_touched release member touched still own
  · exact makes.loses member loses

theorem Broken.lost {faults : Faults} {threshold : Nat} {log : ChangeLog} {before after : Contents}
    (broken : Broken faults threshold log before after) (release : faults.Release) {id : NodeId}
    (wrote : after.bundles id ≠ none) (differs : after.bundles id ≠ before.bundles id)
    {property : PropertyId} (touches : log.Touches property) (stays : ¬ log.Deletes property.node)
    (others : ∀ node ∈ log.addedNodes, node.id ≠ property.node) {stored : StoredProperty}
    (found : entryOf before.bundles property = some stored) {blob : String}
    (own : blob ∈ stored.blobs) : Change.Loses log.changes blob after := by
  cases broken with
  | early cleared clears bundles spares =>
      rw [bundles] at wrote differs
      rcases clears.records id with gone | same
      · exact absurd gone wrote
      · exact absurd same differs
  | late cleared draft drafted records blobs slots =>
      have start : entryOf (Draft.start log.addedNodes cleared).bundle? property = some stored := by
        rw [entryOf_congr (Draft.start_of_not_added others), entryOf_congr (drafted.kept stays)]
        exact found
      intro bytes there
      rw [blobs] at there
      exact Change.loses_of_chain drafted.made release touches start own bytes there

/-- A store that has got so far as to write a record has lost the old blobs of all that it touches:
what is still found in their place is what the log puts. -/
theorem System.lost_of_store {backend : Backend} {faults : Faults}
    (only : backend.FailsOnly faults) (release : faults.Release) {system after : System backend}
    (reachable : system.Reachable) {threshold : Nat} {log : ChangeLog} {error : RepositoryError}
    (failed : (Repository.store threshold log).run serve system = (.error error, after))
    {id : NodeId} (wrote : after.contents.bundles id ≠ none)
    (differs : after.contents.bundles id ≠ system.contents.bundles id) {property : PropertyId}
    (touches : log.Touches property) (stays : ¬ log.Deletes property.node)
    (others : ∀ node ∈ log.addedNodes, node.id ≠ property.node) {stored : StoredProperty}
    (found : entryOf system.contents.bundles property = some stored) {blob : String}
    (own : blob ∈ stored.blobs) {bytes : List UInt8}
    (there : after.contents.blobs blob = some bytes) :
    ∃ state, log.Puts state ∧ .binary bytes ∈ state.values := by
  obtain ⟨rest, proper⟩ := reachable.atRest
  obtain ⟨_rest, abandoned⟩ := rest.store only threshold log failed
  obtain ⟨state, listed, value⟩ := (abandoned.broken proper).lost release wrote differs touches
    stays others found own bytes there
  exact ⟨state, ChangeLog.mem_changes_put.mp listed, value⟩

end BundleStore
