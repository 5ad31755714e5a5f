import BundleStore.Proofs.Store.Meaning

set_option autoImplicit false

/-! The blobs that are stored are those that stored entries speak of, and no others, with the lengths
that the entries give. Blobs are written and released while records are only staged, so the account
is kept of the draft: it is in balance after every change, though storage alone is not. -/

namespace BundleStore

/-- Every blob is some entry's, and what an entry says of its blobs is so. -/
structure Contents.Balanced (contents : Contents) (records : Records) : Prop where
  spokenFor : ∀ {blob bytes}, contents.blobs blob = some bytes →
    ∃ property stored, entryOf records property = some stored ∧ blob ∈ stored.blobs
  present : ∀ {property : PropertyId} {stored : StoredProperty} {place : Nat} {blob : String}
    {length : UInt64}, entryOf records property = some stored →
    stored.values[place]? = some (.blob blob length) →
    ∃ bytes, contents.blobs blob = some bytes ∧ length = UInt64.ofNat bytes.length

/-- No blob identifier belongs to two of these properties. -/
def Contents.Unmixed (contents : Contents) (used : PropertyId → Prop) : Prop :=
  ∀ {left right : PropertyId} {blob : String}, used left → used right →
    contents.SlotOf left blob → contents.SlotOf right blob → left = right

/-- The account of the records, kept with the contents as they are. -/
structure Contents.Account (contents : Contents) (used : PropertyId → Prop)
    (records : Records) : Prop where
  owns : contents.Owns records
  used : ∀ {property stored}, entryOf records property = some stored → used property
  balanced : contents.Balanced records

variable {faults : Faults} {threshold : Nat} {used : PropertyId → Prop}

theorem Contents.Unmixed.earlier {reach : PropertyId → Prop} {before after : Contents}
    (unmixed : after.Unmixed used) (spares : Contents.Spares reach before after) :
    before.Unmixed used :=
  fun isLeft isRight left right =>
    unmixed isLeft isRight (spares.slotOf left) (spares.slotOf right)

namespace Contents

variable {before after : Contents} {records : Records}

theorem Account.still_present {reach : PropertyId → Prop} (account : before.Account used records)
    (spares : Spares reach before after) {property : PropertyId} {stored : StoredProperty}
    (found : entryOf records property = some stored)
    (apart : ∀ other blob, reach other → after.SlotOf property blob → ¬ after.SlotOf other blob)
    {place : Nat} {blob : String} {length : UInt64}
    (held : stored.values[place]? = some (.blob blob length)) :
    ∃ bytes, after.blobs blob = some bytes ∧ length = UInt64.ofNat bytes.length := by
  obtain ⟨bytes, there, counted⟩ := account.balanced.present found held
  refine ⟨bytes, ?_, counted⟩
  rw [spares.blobs]
  · exact there
  · intro other near
    exact apart other blob near ⟨place, spares.slots ((account.owns property stored found).slots held)⟩

/-! ### Deleting a node -/

theorem Deletes.account {node : Node} (deletes : Deletes faults node before after)
    (release : faults.Release) (account : before.Account used before.bundles) :
    after.Account used after.bundles := by
  have cleared := deletes.cleared account.owns
  have bundles := deletes.bundles
  have kept {property : PropertyId} (stays : property.node ≠ node.id) :
      entryOf after.bundles property = entryOf before.bundles property := by
    apply entryOf_congr
    rw [bundles, Function.update_of_ne stays]
  obtain ⟨bundle, held, released⟩ := deletes
  refine ⟨cleared.proper account.owns, fun found => account.used (cleared.entry found), ?_, ?_⟩
  · intro blob bytes there
    have unreleased : blob ∉ bundle.blobs := by
      intro member
      rw [released.gone release blob member] at there
      cases there
    rw [released.toTouched.blobs unreleased] at there
    obtain ⟨property, stored, found, own⟩ := account.balanced.spokenFor there
    refine ⟨property, stored, ?_, own⟩
    rw [kept]
    · exact found
    · intro same
      rw [← same] at held
      rw [entryOf_of_some held] at found
      exact unreleased (List.mem_flatMap.mpr ⟨stored, SortedMap.mem_values.mpr ⟨_, found⟩, own⟩)
  · intro property stored place blob length found slot
    refine account.still_present cleared.spares (cleared.entry found) ?_ slot
    intro other _blob gone given further
    obtain ⟨_place, mine⟩ := given
    obtain ⟨_other, theirs⟩ := further
    rw [← after.oneNode mine theirs] at gone
    exact held_of_entry found gone

theorem account_of_chain {nodes : List Node} (chain : Chain (Deletes faults) nodes before after)
    (release : faults.Release) (account : before.Account used before.bundles) :
    after.Account used after.bundles :=
  chain.preserves (fun now => now.Account used now.bundles)
    (fun _node _member _now _next deletes kept => deletes.account release kept) account

end Contents

/-! ### Staging a change -/

namespace Change

variable {gone : NodeId → Prop} {change : Change} {before after : Draft}

/-- The old blobs of a property are gone when its new ones are written. -/
theorem released_of_entry {property : PropertyId} {bundle : Bundle} {released : Contents}
    (held : before.bundle? property.node = some bundle)
    (releases : Released faults (bundle.blobsOf property.name) before.contents released)
    (release : faults.Release) {blob : String} {bytes : List UInt8}
    (there : released.blobs blob = some bytes) :
    before.contents.blobs blob = some bytes ∧
      ∀ stored, entryOf before.bundle? property = some stored → blob ∉ stored.blobs := by
  have unreleased : blob ∉ bundle.blobsOf property.name := by
    intro member
    rw [releases.gone release blob member] at there
    cases there
  constructor
  · exact (releases.toTouched.blobs unreleased).symm.trans there
  · intro stored found own
    rw [entryOf_of_some held] at found
    apply unreleased
    unfold Bundle.blobsOf
    rw [found]
    exact own

/-- A blob that is there after a change is one of the property's new ones, or was there before and is
none of its old ones. -/
theorem Makes.provenance (makes : change.Makes faults threshold gone before after)
    (release : faults.Release) {blob : String} {bytes : List UInt8}
    (there : after.contents.blobs blob = some bytes) :
    (∃ property stored, entryOf after.bundle? property = some stored ∧ blob ∈ stored.blobs) ∨
      after = before ∨ before.contents.blobs blob = some bytes ∧
        ∀ property stored, change.Touches gone property →
          entryOf before.bundle? property = some stored → blob ∉ stored.blobs := by
  cases change with
  | update node =>
      obtain ⟨_bundle, _held, rfl⟩ := makes
      exact Or.inr (Or.inr ⟨there, fun _property _stored never => never.elim⟩)
  | put state =>
      rcases makes with ⟨_identity, passed⟩ | ⟨_plain, placed⟩
      · exact Or.inr (Or.inl passed)
      · obtain ⟨bundle, released, stored, held, releases, stores, _keeps, found⟩ := placed.entry
        by_cases own : blob ∈ stored.blobs
        · exact Or.inl ⟨state.id, stored, found, own⟩
        · rw [stores.blobs own] at there
          obtain ⟨kept, unreleased⟩ := released_of_entry held releases release there
          refine Or.inr (Or.inr ⟨kept, ?_⟩)
          intro property old given
          obtain ⟨rfl, _plain⟩ := given
          exact unreleased old
  | drop state =>
      rcases makes with ⟨_gone, passed⟩ | ⟨_stays, bundle, held, releases, _staged⟩
      · exact Or.inr (Or.inl passed)
      · obtain ⟨kept, unreleased⟩ := released_of_entry held releases release there
        refine Or.inr (Or.inr ⟨kept, ?_⟩)
        intro property old given
        obtain ⟨rfl, _stays⟩ := given
        exact unreleased old

theorem Makes.touched_present (makes : change.Makes faults threshold gone before after)
    (account : before.contents.Account used before.bundle?) {property : PropertyId}
    (touched : change.Touches gone property) {stored : StoredProperty}
    (found : entryOf after.bundle? property = some stored) {place : Nat} {blob : String}
    {length : UInt64} (held : stored.values[place]? = some (.blob blob length)) :
    ∃ bytes, after.contents.blobs blob = some bytes ∧ length = UInt64.ofNat bytes.length := by
  cases change with
  | update node => exact touched.elim
  | put state =>
      obtain ⟨rfl, _plain⟩ := touched
      rcases makes with ⟨_identity, rfl⟩ | ⟨_plain, placed⟩
      · exact account.balanced.present found held
      · obtain ⟨_bundle, _released, kept, _held, _releases, _stores, keeps, there⟩ := placed.entry
        obtain rfl : kept = stored := Option.some.inj (there.symm.trans found)
        obtain ⟨_value, _there, bytes, _binary, _large, counted, _given, present⟩ :=
          keeps.values.at_place held
        exact ⟨bytes, present, counted⟩
  | drop state =>
      obtain ⟨rfl, stays⟩ := touched
      rw [makes.entry_drop stays] at found
      cases found

theorem Makes.balanced (makes : change.Makes faults threshold gone before after)
    (release : faults.Release) (account : before.contents.Account used before.bundle?)
    (touches : ∀ property, change.Touches gone property → used property)
    (unmixed : after.contents.Unmixed used) : after.contents.Balanced after.bundle? := by
  constructor
  · intro blob bytes there
    rcases makes.provenance release there with fresh | rfl | ⟨kept, unreleased⟩
    · exact fresh
    · exact account.balanced.spokenFor there
    · obtain ⟨property, stored, found, own⟩ := account.balanced.spokenFor kept
      refine ⟨property, stored, ?_, own⟩
      rw [makes.entry_untouched (fun touched => unreleased property stored touched found own)]
      exact found
  · intro property stored place blob length found held
    by_cases touched : change.Touches gone property
    · exact makes.touched_present account touched found held
    · rw [makes.entry_untouched touched] at found
      refine account.still_present (makes.spares account.owns) found ?_ held
      intro other blob near mine theirs
      have same := unmixed (touches other near) (account.used found) theirs mine
      exact touched (same ▸ near)

theorem Makes.account (makes : change.Makes faults threshold gone before after)
    (release : faults.Release) (account : before.contents.Account used before.bundle?)
    (touches : ∀ property, change.Touches gone property → used property)
    (unmixed : after.contents.Unmixed used) : after.contents.Account used after.bundle? := by
  refine ⟨makes.owns account.owns, fun {property stored} found => ?_,
    makes.balanced release account touches unmixed⟩
  by_cases touched : change.Touches gone property
  · exact touches property touched
  · rw [makes.entry_untouched touched] at found
    exact account.used found

end Change

theorem Change.account_of_chain {gone : NodeId → Prop} {list : List Change} {first last : Draft}
    (chain : Chain (Change.Makes faults threshold gone) list first last) (release : faults.Release)
    (account : first.contents.Account used first.bundle?)
    (touches : ∀ property, AnyTouches gone list property → used property)
    (unmixed : last.contents.Unmixed used) : last.contents.Account used last.bundle? := by
  induction chain with
  | nil state => exact account
  | cons head tail ih =>
      have later := Change.staged_of_chain tail (head.owns account.owns)
      have next := head.account release account
        (fun property touched => touches property ⟨_, List.mem_cons_self, touched⟩)
        (unmixed.earlier later.2)
      refine ih next (fun property touched => ?_) unmixed
      obtain ⟨change, member, isTouched⟩ := touched
      exact touches property ⟨change, List.mem_cons_of_mem _ member, isTouched⟩

/-! ### A whole store -/

theorem Draft.start_account {nodes : List Node} {contents : Contents}
    (account : contents.Account used contents.bundles)
    (fresh : ∀ node ∈ nodes, contents.bundles node.id = none) :
    contents.Account used (Draft.start nodes contents).bundle? := by
  have same (property : PropertyId) :
      entryOf (Draft.start nodes contents).bundle? property = entryOf contents.bundles property := by
    by_cases added : ∃ node ∈ nodes, node.id = property.node
    · obtain ⟨node, member, named⟩ := added
      obtain ⟨_id, name⟩ := property
      obtain rfl : node.id = _id := named
      have absent : entryOf contents.bundles ⟨node.id, name⟩ = none :=
        entryOf_of_none (fresh node member)
      rw [absent]
      exact Draft.start_entry_of_added member name
    · exact entryOf_congr (Draft.start_of_not_added
        (fun node member named => added ⟨node, member, named⟩))
  refine ⟨fun property stored found => ?_, fun {property stored} found => ?_, ?_, ?_⟩
  · rw [same] at found
    exact account.owns property stored found
  · rw [same] at found
    exact account.used found
  · intro blob bytes there
    obtain ⟨property, stored, found, own⟩ := account.balanced.spokenFor there
    exact ⟨property, stored, (same property).trans found, own⟩
  · intro property stored place blob length found held
    rw [same] at found
    exact account.balanced.present found held

theorem Applied.account {log : ChangeLog} {before after : Contents}
    (applied : Applied faults threshold log before after) (release : faults.Release)
    (account : before.Account used before.bundles)
    (fresh : ∀ node ∈ log.addedNodes, before.bundles node.id = none)
    (names : ∀ property, log.Names property → used property)
    (unmixed : after.Unmixed used) : after.Account used after.bundles := by
  obtain ⟨cleared, draft, drafted, completed⟩ := applied.completed account.owns
  have still (node : Node) (member : node ∈ log.addedNodes) : cleared.bundles node.id = none :=
    drafted.clears.gone (fresh node member)
  have started := Draft.start_account
    (Contents.account_of_chain drafted.deleted release account) still
  have drawn : draft.contents.Account used draft.bundle? :=
    Change.account_of_chain drafted.made release started
      (fun property touches => names property (ChangeLog.Touches.names touches))
      (fun isLeft isRight left right =>
        unmixed isLeft isRight (completed.slotOf left) (completed.slotOf right))
  rw [completed.bundles]
  refine ⟨drawn.owns.congr completed.slots, drawn.used, ?_, ?_⟩
  · rw [completed.blobs]
    exact drawn.balanced.spokenFor
  · rw [completed.blobs]
    exact drawn.balanced.present

/-! ### Runs of stores -/

/-- Stores that all go well, from an empty storage on, with any requests between them. Nodes are
added where there are none yet, and no log says two things of one item. -/
inductive Stored {backend : Backend} : List ChangeLog → System backend → Prop where
  | empty {storage : backend.State} (empty : (backend.contents storage).Empty) (budget : UInt64)
      (shards : Nat) (spread : NodeId → Nat) :
      Stored [] (System.fresh storage budget shards spread)
  | ask {logs : List ChangeLog} {system : System backend} (stored : Stored logs system)
      (requests : List Request) : Stored logs (System.ask requests system)
  | store {logs : List ChangeLog} {system after : System backend} (stored : Stored logs system)
      {threshold : Nat} {log : ChangeLog} (distinct : log.Distinct)
      (fresh : ∀ node ∈ log.addedNodes, system.contents.bundles node.id = none)
      (ends : (Repository.store threshold log).run System.serve system = (.ok (), after)) :
      Stored (log :: logs) after

def ChangeLog.AnyNames (logs : List ChangeLog) (property : PropertyId) : Prop :=
  ∃ log ∈ logs, log.Names property

theorem Faults.none_release : Faults.none.Release := fun _blob _error _contents never => never

theorem Contents.Empty.account {contents : Contents} (empty : contents.Empty)
    (used : PropertyId → Prop) : contents.Account used contents.bundles := by
  have none_stored {property : PropertyId} {stored : StoredProperty}
      (found : entryOf contents.bundles property = some stored) : False :=
    held_of_entry found (empty.bundles property.node)
  refine ⟨empty.proper, fun found => (none_stored found).elim, ?_, ?_⟩
  · intro blob bytes there
    rw [empty.blobs] at there
    cases there
  · intro property stored place blob length found
    exact (none_stored found).elim

namespace Stored

variable {backend : Backend} {logs : List ChangeLog} {system : System backend}

theorem atRest (reliable : backend.FailsOnly Faults.none) (stored : Stored logs system) :
    system.AtRest ∧ system.contents.Proper := by
  induction stored with
  | empty empty budget shards spread =>
      exact ⟨System.fresh_atRest _ budget shards spread, empty.proper⟩
  | ask stored requests ih =>
      obtain ⟨rest, same⟩ := ih.1.ask requests
      exact ⟨rest, same ▸ ih.2⟩
  | store stored distinct fresh ends ih =>
      obtain ⟨rest, applied⟩ := ih.1.store reliable _ _ ends
      exact ⟨rest, applied.proper ih.2⟩

theorem account (reliable : backend.FailsOnly Faults.none) (stored : Stored logs system)
    (unmixed : system.contents.Unmixed (ChangeLog.AnyNames logs)) :
    system.contents.Account (ChangeLog.AnyNames logs) system.contents.bundles := by
  induction stored with
  | empty empty budget shards spread => exact empty.account _
  | ask stored requests ih =>
      have same := ((stored.atRest reliable).1.ask requests).2
      rw [same] at unmixed ⊢
      exact ih unmixed
  | store stored distinct fresh ends ih =>
      rename_i logs system after threshold log
      obtain ⟨rest, proper⟩ := stored.atRest reliable
      obtain ⟨_rest, applied⟩ := rest.store reliable threshold log ends
      have earlier (property : PropertyId) (named : ChangeLog.AnyNames logs property) :
          ChangeLog.AnyNames (log :: logs) property := by
        obtain ⟨other, member, names⟩ := named
        exact ⟨other, List.mem_cons_of_mem _ member, names⟩
      have before := ih (fun isLeft isRight left right =>
        unmixed (earlier _ isLeft) (earlier _ isRight) (applied.slotOf proper left)
          (applied.slotOf proper right))
      exact applied.account Faults.none_release
        ⟨before.owns, fun found => earlier _ (before.used found), before.balanced⟩ fresh
        (fun _property named => ⟨log, List.mem_cons_self, named⟩) unmixed

end Stored

/-! ### What the account says -/

namespace Contents

def valueAt (contents : Contents) (property : PropertyId) (place : Nat) : Option StoredValue :=
  (entryOf contents.bundles property).bind (fun stored => stored.values[place]?)

/-- The blobs that are there are those that the records speak of. No two values share one, and each
has the length that its value gives. -/
structure Accounted (contents : Contents) : Prop where
  blobs : ∀ blob, (contents.blobs blob).isSome = true ↔
    ∃ id bundle, contents.bundles id = some bundle ∧ blob ∈ bundle.blobs
  unshared : ∀ {left right : PropertyId} {leftPlace rightPlace : Nat} {blob : String}
    {leftLength rightLength : UInt64},
    contents.valueAt left leftPlace = some (.blob blob leftLength) →
    contents.valueAt right rightPlace = some (.blob blob rightLength) →
    left = right ∧ leftPlace = rightPlace
  lengths : ∀ {property : PropertyId} {place : Nat} {blob : String} {length : UInt64},
    contents.valueAt property place = some (.blob blob length) →
    ∃ bytes, contents.blobs blob = some bytes ∧ length = UInt64.ofNat bytes.length

variable {contents : Contents} {used : PropertyId → Prop}

theorem accounted_of_account (account : contents.Account used contents.bundles)
    (unmixed : contents.Unmixed used) : contents.Accounted := by
  have held {property : PropertyId} {place : Nat} {value : StoredValue}
      (there : contents.valueAt property place = some value) :
      ∃ stored, entryOf contents.bundles property = some stored ∧
        stored.values[place]? = some value := Option.bind_eq_some_iff.mp there
  constructor
  · intro blob
    constructor
    · intro there
      obtain ⟨bytes, isThere⟩ := Option.isSome_iff_exists.mp there
      obtain ⟨property, stored, found, own⟩ := account.balanced.spokenFor isThere
      obtain ⟨bundle, recorded, filed⟩ := Option.bind_eq_some_iff.mp found
      exact ⟨property.node, bundle, recorded,
        List.mem_flatMap.mpr ⟨stored, SortedMap.mem_values.mpr ⟨_, filed⟩, own⟩⟩
    · intro given
      obtain ⟨id, bundle, recorded, member⟩ := given
      obtain ⟨property, stored, _named, found, own⟩ := mem_blobs_of_record recorded member
      obtain ⟨place, length, slot⟩ := StoredProperty.mem_blobs.mp own
      obtain ⟨bytes, there, _counted⟩ := account.balanced.present found slot
      rw [there]
      rfl
  · intro left right leftPlace rightPlace blob leftLength rightLength inLeft inRight
    obtain ⟨leftStored, leftFound, leftSlot⟩ := held inLeft
    obtain ⟨rightStored, rightFound, rightSlot⟩ := held inRight
    have leftGiven := (account.owns left leftStored leftFound).slots leftSlot
    have rightGiven := (account.owns right rightStored rightFound).slots rightSlot
    obtain rfl := unmixed (account.used leftFound) (account.used rightFound)
      ⟨leftPlace, leftGiven⟩ ⟨rightPlace, rightGiven⟩
    exact ⟨rfl, contents.onePlace leftGiven rightGiven⟩
  · intro property place blob length there
    obtain ⟨stored, found, slot⟩ := held there
    exact account.balanced.present found slot

end Contents

/-- After every store of a run that goes well from an empty storage on, no blob is missing, none is
left over, and none is shared. -/
theorem Stored.accounted (backend : Backend) (reliable : backend.FailsOnly Faults.none)
    (logs : List ChangeLog) (system : System backend) (stored : Stored logs system)
    (unmixed : system.contents.Unmixed (ChangeLog.AnyNames logs)) :
    system.contents.Accounted :=
  Contents.accounted_of_account (stored.account reliable unmixed) unmixed

/-- The list of references to the node is given up. -/
def forgetLog : ChangeLog :=
  { ChangeLog.empty with references := [References.none NodeId.zero] }

def afterForget : System MemoryStorage.backend :=
  ((Repository.store 2 forgetLog).run System.serve System.afterLetter).2

theorem forget_ends : (Repository.store 2 forgetLog).run System.serve System.afterLetter =
    (.ok (), afterForget) := rfl

theorem forget_unmixed (contents : Contents) :
    contents.Unmixed (ChangeLog.AnyNames [forgetLog, System.letterLog]) := by
  have only {property : PropertyId}
      (named : ChangeLog.AnyNames [forgetLog, System.letterLog] property) :
      property = System.letter := by
    obtain ⟨log, member, names⟩ := named
    rcases List.mem_cons.mp member with rfl | further
    · obtain ⟨item, listed, _named⟩ := names
      cases listed
    · obtain rfl := List.mem_singleton.mp further
      exact System.letterLog_names names
  intro left right blob isLeft isRight _left _right
  rw [only isLeft, only isRight]

theorem forget_accounted : Stored [forgetLog, System.letterLog] afterForget ∧
    afterForget.contents.Accounted :=
  have first : Stored [System.letterLog] System.afterLetter :=
    Stored.store (Stored.empty System.blank_empty 100000 1 (fun _ => 0)) System.letterLog_distinct
      (fun node _member => System.blank_empty.bundles node.id) System.letter_ends
  have second : Stored [forgetLog, System.letterLog] afterForget :=
    Stored.store first (by unfold ChangeLog.Distinct; decide +kernel)
      (fun node member => by cases member) forget_ends
  ⟨second, Stored.accounted MemoryStorage.backend MemoryStorage.backend_failsOnly _ afterForget second
    (forget_unmixed _)⟩

end BundleStore
