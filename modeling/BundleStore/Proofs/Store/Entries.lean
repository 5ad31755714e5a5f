import BundleStore.Proofs.SortedMap
import BundleStore.Proofs.Store.Effects

set_option autoImplicit false

/-! What the passes of a store do to the single entries of records and to their blobs. An entry is
its property's own: it is filed under the property's name, and its blobs have been given to places
of the property. A change touches one entry, and no blobs but that property's. -/

namespace BundleStore

/-! ### Headers and entries -/

/-- What a node says of itself. -/
structure Header where
  parent : Option NodeId
  nodeType : Name
  mixins : SortedSet Name
  children : List Child

def Node.header (node : Node) : Header := ⟨node.parent, node.nodeType, node.mixins, node.children⟩

namespace Bundle

def header (bundle : Bundle) : Header :=
  ⟨bundle.parent, bundle.nodeType, bundle.mixins, bundle.children⟩

theorem find?_withProperty_self (bundle : Bundle) (name : Name) (stored : StoredProperty) :
    (bundle.withProperty name stored).properties.find? name = some stored :=
  SortedMap.find?_insert_self ..

theorem find?_withProperty_of_ne (bundle : Bundle) {name other : Name} (differs : other ≠ name)
    (stored : StoredProperty) :
    (bundle.withProperty name stored).properties.find? other = bundle.properties.find? other := by
  unfold withProperty
  rw [SortedMap.find?_insert_of_ne _ differs, SortedMap.find?_erase_of_ne _ differs]

theorem find?_withoutProperty_self (bundle : Bundle) (name : Name) :
    (bundle.withoutProperty name).properties.find? name = none :=
  SortedMap.find?_erase_self ..

theorem find?_withoutProperty_of_ne (bundle : Bundle) {name other : Name} (differs : other ≠ name) :
    (bundle.withoutProperty name).properties.find? other = bundle.properties.find? other :=
  SortedMap.find?_erase_of_ne _ differs

end Bundle

/-- The records of nodes, as storage holds them or is going to. -/
abbrev Records := NodeId → Option Bundle

def entryOf (records : Records) (property : PropertyId) : Option StoredProperty :=
  (records property.node).bind (fun bundle => bundle.properties.find? property.name)

def headerOf (records : Records) (id : NodeId) : Option Header := (records id).map Bundle.header

theorem entryOf_of_some {records : Records} {property : PropertyId} {bundle : Bundle}
    (held : records property.node = some bundle) :
    entryOf records property = bundle.properties.find? property.name := by
  unfold entryOf
  rw [held]
  rfl

theorem entryOf_of_none {records : Records} {property : PropertyId}
    (absent : records property.node = none) : entryOf records property = none := by
  unfold entryOf
  rw [absent]
  rfl

theorem held_of_entry {records : Records} {property : PropertyId} {stored : StoredProperty}
    (found : entryOf records property = some stored) : records property.node ≠ none := by
  intro absent
  rw [entryOf_of_none absent] at found
  cases found

theorem entryOf_congr {left right : Records} {property : PropertyId}
    (same : left property.node = right property.node) :
    entryOf left property = entryOf right property := by
  unfold entryOf
  rw [same]

theorem headerOf_congr {left right : Records} {id : NodeId} (same : left id = right id) :
    headerOf left id = headerOf right id := by
  unfold headerOf
  rw [same]

/-! ### Blobs of an entry -/

theorem StoredProperty.mem_blobs {stored : StoredProperty} {blob : String} :
    blob ∈ stored.blobs ↔ ∃ (place : Nat) (length : UInt64),
      stored.values[place]? = some (.blob blob length) := by
  unfold blobs
  rw [List.mem_filterMap]
  constructor
  · intro given
    obtain ⟨value, member, held⟩ := given
    obtain ⟨place, found⟩ := List.mem_iff_getElem?.mp member
    cases value with
    | inline kept => cases held
    | blob id length =>
        cases held
        exact ⟨place, length, found⟩
  · intro given
    obtain ⟨place, length, found⟩ := given
    exact ⟨_, List.mem_iff_getElem?.mpr ⟨place, found⟩, rfl⟩

theorem StoredValue.KeepAll.at_place {contents : Contents} {threshold : Nat}
    {property : PropertyId} {place : Nat} {values : List Value} {stored : List StoredValue}
    (keepAll : KeepAll contents threshold property place values stored) {further : Nat}
    {kept : StoredValue} (found : stored[further]? = some kept) :
    ∃ value, values[further]? = some value ∧
      kept.Keeps contents threshold property (place + further) value := by
  induction values generalizing place stored further with
  | nil =>
      cases stored with
      | nil => cases found
      | cons head tail => exact keepAll.elim
  | cons value rest ih =>
      cases stored with
      | nil => exact keepAll.elim
      | cons head tail =>
          obtain ⟨first, others⟩ := keepAll
          cases further with
          | zero =>
              cases found
              exact ⟨value, rfl, first⟩
          | succ further =>
              obtain ⟨later, there, keeps⟩ := ih others found
              refine ⟨later, there, ?_⟩
              rw [show place + (further + 1) = place + 1 + further by omega]
              exact keeps

/-- A value that is larger than the threshold is kept as a blob. -/
theorem StoredValue.KeepAll.large {contents : Contents} {threshold : Nat} {property : PropertyId}
    {place : Nat} {values : List Value} {stored : List StoredValue}
    (keepAll : KeepAll contents threshold property place values stored) {further : Nat}
    {bytes : List UInt8} (found : values[further]? = some (.binary bytes))
    (large : threshold < bytes.length) : ∃ blob,
      contents.slots property (place + further) = some blob ∧ contents.blobs blob = some bytes := by
  induction values generalizing place stored further with
  | nil => cases found
  | cons value rest ih =>
      cases stored with
      | nil => exact keepAll.elim
      | cons head tail =>
          obtain ⟨first, others⟩ := keepAll
          cases further with
          | zero =>
              cases found
              cases head with
              | inline kept => exact absurd (first.2 bytes rfl) (Nat.not_le.mpr large)
              | blob blob length =>
                  obtain ⟨held, same, _large, _counted, given, present⟩ := first
                  cases same
                  exact ⟨blob, given, present⟩
          | succ further =>
              rw [show place + (further + 1) = place + 1 + further by omega]
              exact ih others found

/-- The entry is the property's own. -/
structure StoredProperty.Own (contents : Contents) (property : PropertyId)
    (stored : StoredProperty) : Prop where
  id : stored.id = property
  plain : property.name.isIdentity = false
  slots : ∀ {place blob length}, stored.values[place]? = some (.blob blob length) →
    contents.slots property place = some blob

namespace StoredProperty

theorem Own.slotOf {contents : Contents} {property : PropertyId} {stored : StoredProperty}
    (own : stored.Own contents property) {blob : String} (member : blob ∈ stored.blobs) :
    contents.SlotOf property blob := by
  obtain ⟨place, length, found⟩ := mem_blobs.mp member
  exact ⟨place, own.slots found⟩

theorem Keeps.own {contents : Contents} {threshold : Nat} {state : Property}
    {stored : StoredProperty} (keeps : stored.Keeps contents threshold state)
    (plain : state.id.name.isIdentity = false) : stored.Own contents state.id := by
  refine ⟨keeps.id, plain, fun {place blob length} found => ?_⟩
  obtain ⟨value, _there, bytes, _binary, _large, _counted, given, _held⟩ :=
    keeps.values.at_place found
  rw [Nat.zero_add] at given
  exact given

end StoredProperty

/-! ### What is spared -/

namespace Contents

/-- No blob differs but those of properties within reach; blob identifiers once given stay. -/
structure Spares (reach : PropertyId → Prop) (before after : Contents) : Prop where
  blobs : ∀ {blob}, (∀ property, reach property → ¬ after.SlotOf property blob) →
    after.blobs blob = before.blobs blob
  slots : ∀ {property place blob}, before.slots property place = some blob →
    after.slots property place = some blob

variable {reach : PropertyId → Prop} {before after : Contents}

theorem Spares.slotOf (spares : Spares reach before after) {property : PropertyId} {blob : String}
    (given : before.SlotOf property blob) : after.SlotOf property blob := by
  obtain ⟨place, slot⟩ := given
  exact ⟨place, spares.slots slot⟩

theorem Spares.refl (reach : PropertyId → Prop) (contents : Contents) :
    Spares reach contents contents := ⟨fun _ => rfl, fun given => given⟩

theorem Spares.trans {last : Contents} (early : Spares reach before after)
    (late : Spares reach after last) : Spares reach before last := by
  refine ⟨fun {blob} out => ?_, fun given => late.slots (early.slots given)⟩
  rw [late.blobs out, early.blobs]
  intro property near given
  exact out property near (late.slotOf given)

theorem Spares.wider {larger : PropertyId → Prop} (spares : Spares reach before after)
    (wider : ∀ property, reach property → larger property) : Spares larger before after :=
  ⟨fun out => spares.blobs (fun property near => out property (wider property near)),
    spares.slots⟩

theorem Touched.spares {touches : String → Prop} (touched : Touched touches before after)
    (near : ∀ blob, touches blob → ∃ property, reach property ∧ after.SlotOf property blob) :
    Spares reach before after := by
  refine ⟨fun {blob} out => touched.blobs (fun touches => ?_), touched.slots⟩
  obtain ⟨property, within, given⟩ := near blob touches
  exact out property within given

/-- Every entry is its property's own. -/
def Owns (contents : Contents) (records : Records) : Prop :=
  ∀ property stored, entryOf records property = some stored → stored.Own contents property

theorem Owns.later {records : Records} (owns : before.Owns records)
    (spares : Spares reach before after) : after.Owns records := by
  intro property stored found
  have own := owns property stored found
  exact ⟨own.id, own.plain, fun held => spares.slots (own.slots held)⟩

/-- As every storage is that was only ever written through a repository. -/
def Proper (contents : Contents) : Prop := contents.Owns contents.bundles

end Contents

/-! ### Changes -/

namespace Change

/-- The node whose record is changed. -/
def node : Change → NodeId
  | .update node => node.id
  | .put state => state.id.node
  | .drop state => state.id.node

/-- The entry of the property is changed. Identity properties are passed over, and what is dropped
from nodes that are gone. -/
def Touches (gone : NodeId → Prop) : Change → PropertyId → Prop
  | .update _, _ => False
  | .put state, property => state.id = property ∧ property.name.isIdentity = false
  | .drop state, property => state.id = property ∧ ¬ gone property.node

def header : Change → Header → Header
  | .update node, _ => node.header
  | _, old => old

/-- One record gives way to another, which differs in what the change touches. -/
structure Turns (gone : NodeId → Prop) (change : Change) (old new : Bundle) (before after : Draft) :
    Prop where
  held : before.bundle? change.node = some old
  turned : after.bundle? = Function.update before.bundle? change.node (some new)
  header : new.header = change.header old.header
  entries : ∀ name, ¬ change.Touches gone ⟨change.node, name⟩ →
    new.properties.find? name = old.properties.find? name

end Change

theorem Draft.bundle?_stage {before after : Draft} {id : NodeId} {bundle : Bundle}
    (staged : after.staged = before.stage id bundle)
    (same : after.contents.bundles = before.contents.bundles) :
    after.bundle? = Function.update before.bundle? id (some bundle) := by
  funext other
  unfold Draft.bundle?
  rw [staged, same, Draft.stage]
  by_cases asked : other = id
  · rw [asked, Function.update_self, Function.update_self]
    rfl
  · rw [Function.update_of_ne asked, Function.update_of_ne asked]

theorem Bundle.mem_blobsOf {records : Records} {property : PropertyId} {bundle : Bundle}
    (held : records property.node = some bundle) {blob : String}
    (member : blob ∈ bundle.blobsOf property.name) :
    ∃ stored, entryOf records property = some stored ∧ blob ∈ stored.blobs := by
  rw [entryOf_of_some held]
  unfold blobsOf at member
  cases found : bundle.properties.find? property.name with
  | none =>
      rw [found] at member
      cases member
  | some stored =>
      rw [found] at member
      exact ⟨stored, rfl, member⟩

section

variable {faults : Faults} {threshold : Nat} {gone : NodeId → Prop} {change : Change}
  {before after : Draft}

theorem released_spares {reach : PropertyId → Prop} {property : PropertyId} {bundle : Bundle}
    {last : Contents} (owns : before.contents.Owns before.bundle?)
    (held : before.bundle? property.node = some bundle)
    (releases : Released faults (bundle.blobsOf property.name) before.contents last)
    (near : reach property) : Contents.Spares reach before.contents last := by
  refine releases.toTouched.spares (fun blob member => ⟨property, near, ?_⟩)
  obtain ⟨stored, found, own⟩ := Bundle.mem_blobsOf held member
  obtain ⟨place, slot⟩ := (owns property stored found).slotOf own
  exact ⟨place, releases.slots slot⟩

namespace Change.Puts

variable {state : Property}

theorem bundles (puts : Puts faults threshold state before after) :
    after.contents.bundles = before.contents.bundles := by
  obtain ⟨_bundle, _released, _stored, _held, releases, stores, _keeps, _staged⟩ := puts
  exact stores.bundles.trans releases.bundles

theorem entry (puts : Puts faults threshold state before after) :
    ∃ bundle released stored, before.bundle? state.id.node = some bundle ∧
      Released faults (bundle.blobsOf state.id.name) before.contents released ∧
      Contents.Touched (fun blob => blob ∈ stored.blobs) released after.contents ∧
      stored.Keeps after.contents threshold state ∧
      entryOf after.bundle? state.id = some stored := by
  have same := puts.bundles
  obtain ⟨bundle, released, stored, held, releases, stores, keeps, staged⟩ := puts
  have turned := Draft.bundle?_stage staged same
  refine ⟨bundle, released, stored, held, releases, stores, keeps, ?_⟩
  rw [entryOf_of_some (show after.bundle? state.id.node = some _ by
    rw [turned, Function.update_self])]
  exact bundle.find?_withProperty_self state.id.name stored

end Change.Puts

namespace Change.Makes

theorem aside (makes : change.Makes faults threshold gone before after) :
    after.contents.bundles = before.contents.bundles ∧
      after.contents.references = before.contents.references := by
  cases change with
  | update node =>
      obtain ⟨_bundle, _held, rfl⟩ := makes
      exact ⟨rfl, rfl⟩
  | put state =>
      rcases makes with ⟨_identity, rfl⟩ | ⟨_plain, puts⟩
      · exact ⟨rfl, rfl⟩
      · obtain ⟨_bundle, _released, _stored, _held, releases, stores, _keeps, _staged⟩ := puts
        exact ⟨stores.bundles.trans releases.bundles, stores.references.trans releases.references⟩
  | drop state =>
      rcases makes with ⟨_gone, rfl⟩ | ⟨_stays, _bundle, _held, releases, _staged⟩
      · exact ⟨rfl, rfl⟩
      · exact ⟨releases.bundles, releases.references⟩

/-- A change is passed over, or turns one record into another. -/
theorem turns (makes : change.Makes faults threshold gone before after) :
    after = before ∨ ∃ old new, change.Turns gone old new before after := by
  have same := makes.aside.1
  cases change with
  | update node =>
      obtain ⟨bundle, held, rfl⟩ := makes
      exact Or.inr ⟨bundle, bundle.update node, held, Draft.bundle?_stage rfl rfl, rfl,
        fun _name _other => rfl⟩
  | put state =>
      rcases makes with ⟨_identity, passed⟩ | ⟨plain, bundle, _released, stored, held, _releases,
        _stores, _keeps, staged⟩
      · exact Or.inl passed
      · refine Or.inr ⟨bundle, _, held, Draft.bundle?_stage staged same, rfl, fun name other => ?_⟩
        refine bundle.find?_withProperty_of_ne (fun named => other ?_) stored
        rw [named]
        exact ⟨rfl, plain⟩
  | drop state =>
      rcases makes with ⟨_gone, passed⟩ | ⟨stays, bundle, held, _releases, staged⟩
      · exact Or.inl passed
      · refine Or.inr ⟨bundle, _, held, Draft.bundle?_stage staged same, rfl, fun name other => ?_⟩
        refine bundle.find?_withoutProperty_of_ne (fun named => other ?_)
        rw [named]
        exact ⟨rfl, stays⟩

theorem entry_untouched (makes : change.Makes faults threshold gone before after)
    {property : PropertyId} (other : ¬ change.Touches gone property) :
    entryOf after.bundle? property = entryOf before.bundle? property := by
  rcases makes.turns with rfl | ⟨old, new, turns⟩
  · rfl
  · by_cases same : property.node = change.node
    · obtain ⟨node, name⟩ := property
      obtain rfl : node = change.node := same
      rw [entryOf_of_some (show after.bundle? _ = some new by
        rw [turns.turned, Function.update_self]), entryOf_of_some turns.held]
      exact turns.entries name other
    · apply entryOf_congr
      rw [turns.turned, Function.update_of_ne same]

theorem absent (makes : change.Makes faults threshold gone before after) {id : NodeId}
    (absent : before.bundle? id = none) : after.bundle? id = none := by
  rcases makes.turns with rfl | ⟨old, new, turns⟩
  · exact absent
  · have differs : id ≠ change.node := by
      intro same
      subst same
      rw [turns.held] at absent
      cases absent
    rw [turns.turned, Function.update_of_ne differs]
    exact absent

theorem header_of_ne (makes : change.Makes faults threshold gone before after) {id : NodeId}
    (other : ∀ node : Node, change = .update node → node.id ≠ id) :
    headerOf after.bundle? id = headerOf before.bundle? id := by
  rcases makes.turns with rfl | ⟨old, new, turns⟩
  · rfl
  · by_cases same : id = change.node
    · unfold headerOf
      rw [turns.turned, same, Function.update_self, turns.held, Option.map_some, Option.map_some,
        turns.header]
      cases change with
      | update node => exact absurd same.symm (other node rfl)
      | put state => rfl
      | drop state => rfl
    · apply headerOf_congr
      rw [turns.turned, Function.update_of_ne same]

theorem header_update {node : Node}
    (makes : (Change.update node).Makes faults threshold gone before after) :
    headerOf after.bundle? node.id = some node.header := by
  obtain ⟨bundle, _held, rfl⟩ := makes
  have turned : Draft.bundle? ⟨before.stage node.id (bundle.update node), before.contents⟩ =
      Function.update before.bundle? node.id (some (bundle.update node)) :=
    Draft.bundle?_stage rfl rfl
  unfold headerOf
  rw [turned, Function.update_self]
  rfl

theorem puts {state : Property}
    (makes : (Change.put state).Makes faults threshold gone before after)
    (plain : state.id.name.isIdentity = false) : Puts faults threshold state before after := by
  rcases makes with ⟨identity, _passed⟩ | ⟨_plain, puts⟩
  · exact absurd identity (Bool.eq_false_iff.mp plain)
  · exact puts

theorem drops {state : Property}
    (makes : (Change.drop state).Makes faults threshold gone before after)
    (stays : ¬ gone state.id.node) : Drops faults state before after := by
  rcases makes with ⟨deleted, _passed⟩ | ⟨_stays, drops⟩
  · exact absurd deleted stays
  · exact drops

theorem entry_drop {state : Property}
    (makes : (Change.drop state).Makes faults threshold gone before after)
    (stays : ¬ gone state.id.node) : entryOf after.bundle? state.id = none := by
  have same := makes.aside.1
  obtain ⟨bundle, _held, _releases, staged⟩ := makes.drops stays
  rw [entryOf_of_some (show after.bundle? _ = some _ by
    rw [Draft.bundle?_stage staged same, Function.update_self])]
  exact bundle.find?_withoutProperty_self state.id.name

theorem spares (makes : change.Makes faults threshold gone before after)
    (owns : before.contents.Owns before.bundle?) :
    Contents.Spares (change.Touches gone) before.contents after.contents := by
  cases change with
  | update node =>
      obtain ⟨_bundle, _held, rfl⟩ := makes
      exact Contents.Spares.refl ..
  | put state =>
      rcases makes with ⟨_identity, rfl⟩ | ⟨plain, bundle, _released, stored, held, releases,
        stores, keeps, _staged⟩
      · exact Contents.Spares.refl ..
      · refine (released_spares owns held releases ⟨rfl, plain⟩).trans
          (stores.spares (fun blob member => ?_))
        exact ⟨state.id, ⟨rfl, plain⟩, (keeps.own plain).slotOf member⟩
  | drop state =>
      rcases makes with ⟨_gone, rfl⟩ | ⟨stays, _bundle, held, releases, _staged⟩
      · exact Contents.Spares.refl ..
      · exact released_spares owns held releases ⟨rfl, stays⟩

/-- What is so of every entry, and of every property that is stored, is so of every entry after the
change. -/
theorem entries (makes : change.Makes faults threshold gone before after)
    {holds : PropertyId → StoredProperty → Prop}
    (kept : ∀ property stored, entryOf before.bundle? property = some stored →
      holds property stored)
    (new : ∀ state stored, state.id.name.isIdentity = false →
      stored.Keeps after.contents threshold state → holds state.id stored)
    {property : PropertyId} {stored : StoredProperty}
    (found : entryOf after.bundle? property = some stored) : holds property stored := by
  by_cases touched : change.Touches gone property
  · cases change with
    | update node => exact touched.elim
    | put state =>
        obtain ⟨rfl, _plain⟩ := touched
        rcases makes with ⟨_identity, rfl⟩ | ⟨plain, puts⟩
        · exact kept _ stored found
        · obtain ⟨_bundle, _released, written, _held, _releases, _stores, keeps, there⟩ := puts.entry
          obtain rfl : written = stored := Option.some.inj (there.symm.trans found)
          exact new state written plain keeps
    | drop state =>
        obtain ⟨rfl, stays⟩ := touched
        rw [makes.entry_drop stays] at found
        cases found
  · rw [makes.entry_untouched touched] at found
    exact kept property stored found

/-- Every entry stays, or becomes, its property's own. -/
theorem owns (makes : change.Makes faults threshold gone before after)
    (owns : before.contents.Owns before.bundle?) : after.contents.Owns after.bundle? :=
  fun _property _stored found => makes.entries (owns.later (makes.spares owns))
    (fun _state _stored plain keeps => keeps.own plain) found

end Change.Makes

theorem Change.Spoils.spares {left : Contents} (spoils : change.Spoils faults before left)
    (gone : NodeId → Prop) (owns : before.contents.Owns before.bundle?) :
    Contents.Spares (change.Touches gone) before.contents left ∧
      left.bundles = before.contents.bundles := by
  cases change with
  | update node =>
      obtain rfl := spoils
      exact ⟨Contents.Spares.refl .., rfl⟩
  | put state =>
      rcases spoils with rfl | ⟨plain, bundle, released, held, releases, stores⟩
      · exact ⟨Contents.Spares.refl .., rfl⟩
      · constructor
        · exact (released_spares owns held releases ⟨rfl, plain⟩).trans
            (stores.spares (fun blob given => ⟨state.id, ⟨rfl, plain⟩, given⟩))
        · exact stores.bundles.trans releases.bundles
  | drop state =>
      obtain rfl := spoils
      exact ⟨Contents.Spares.refl .., rfl⟩

end

end BundleStore
