import BundleStore.Proofs.Coherence.Runs
import BundleStore.Proofs.Store.Logs

set_option autoImplicit false

/-! What a store means for what is read after it. Eight passes go over the log, and a property gets
to its owner through an added node, a modified one or one that is fetched; what can be read in the
end depends on the log alone, and on what could be read before. -/

namespace BundleStore

/-- What can be read of a repository. -/
structure View where
  node : NodeId → Except RepositoryError Node
  property : PropertyId → Except RepositoryError Property
  references : NodeId → Except RepositoryError References

def Contents.view (contents : Contents) : View :=
  ⟨contents.node, contents.property, contents.referencesTo⟩

def System.view {backend : Backend} (system : System backend) : View :=
  ⟨system.node, system.property, system.referencesTo⟩

theorem System.AtRest.view {backend : Backend} (reliable : backend.FailsOnly Faults.none)
    {system : System backend} (rest : system.AtRest) : system.view = system.contents.view := by
  unfold System.view Contents.view
  rw [View.mk.injEq]
  exact ⟨funext (rest.node reliable), funext (rest.property reliable),
    funext (rest.referencesTo reliable)⟩

namespace View

/-- There is no such node, and none of its properties. -/
structure NoNode (view : View) (id : NodeId) : Prop where
  node : view.node id = .error (.notFound (.node id))
  properties : ∀ name, view.property ⟨id, name⟩ = .error (.notFound (.property ⟨id, name⟩))

def NoProperty (view : View) (id : PropertyId) : Prop :=
  view.property id = .error (.notFound (.property id))

/-- The node is stored with this header. -/
structure HasNode (view : View) (node read : Node) : Prop where
  found : view.node node.id = .ok read
  id : read.id = node.id
  header : read.header = node.header
  status : read.status = .existing

end View

/-- What a log that was stored has made of what can be read. -/
structure ChangeLog.Effect (log : ChangeLog) (before after : View) : Prop where
  deleted : ∀ node ∈ log.deletedNodes, after.NoNode node.id
  added : ∀ node ∈ log.addedNodes, ∃ read, after.HasNode node read ∧
    ∀ name, name.isIdentity = false →
      (read.properties.contains name = true ↔ ∃ state, log.Puts state ∧ state.id = ⟨node.id, name⟩)
  addedOnly : ∀ node ∈ log.addedNodes, ∀ name, name.isIdentity = false →
    (∀ state, log.Puts state → state.id ≠ ⟨node.id, name⟩) → after.NoProperty ⟨node.id, name⟩
  modified : ∀ node ∈ log.modifiedNodes, ∃ read, after.HasNode node read
  put : ∀ state, log.Puts state → state.id.name.isIdentity = false →
    after.property state.id = .ok { state with status := .existing }
  dropped : ∀ state ∈ log.deletedProperties, state.id.name.isIdentity = false →
    after.NoProperty state.id
  others : ∀ property : PropertyId, property.name.isIdentity = false → ¬ log.Names property →
    ¬ log.Deletes property.node → (∀ node ∈ log.addedNodes, node.id ≠ property.node) →
    after.property property = before.property property
  identity : ∀ node, node ∈ log.addedNodes ∨ node ∈ log.modifiedNodes → ∀ name state,
    (Bundle.ofNode node).identityState? name = some state →
    after.property ⟨node.id, name⟩ = .ok state
  elsewhere : ∀ id, (∀ item ∈ log.items, item.bundleId ≠ id) →
    after.node id = before.node id ∧ ∀ name, after.property ⟨id, name⟩ = before.property ⟨id, name⟩
  listed : ∀ references ∈ log.references, after.references references.target =
    if references.isEmpty then .error (.notFound (.node references.target)) else .ok references
  unlisted : ∀ target, (∀ references ∈ log.references, references.target ≠ target) →
    after.references target = before.references target

/-- No blob identifier belongs to a property that the log names and to another one that it names
or that is stored. -/
def ChangeLog.Apart (log : ChangeLog) (before after : Contents) : Prop :=
  ∀ {left right : PropertyId} {blob : String}, log.Names left →
    (log.Names right ∨ entryOf before.bundles right ≠ none) →
    after.SlotOf left blob → after.SlotOf right blob → left = right

/-! ### Reading entries -/

theorem Bundle.identityState?_plain (bundle : Bundle) {name : Name}
    (plain : name.isIdentity = false) : bundle.identityState? name = none := by
  unfold Name.isIdentity at plain
  simp only [Bool.or_eq_false_iff, decide_eq_false_iff_not] at plain
  obtain ⟨⟨notUuid, notType⟩, notMixins⟩ := plain
  unfold identityState?
  simp only [if_neg notUuid, if_neg notType, if_neg notMixins]

/-- An identity property depends on the node and its types alone. -/
theorem Bundle.identityState?_of_types {left right : Bundle} (id : left.id = right.id)
    (nodeType : left.nodeType = right.nodeType) (mixins : left.mixins = right.mixins)
    (name : Name) : left.identityState? name = right.identityState? name := by
  unfold identityState?
  rw [id, nodeType, mixins]

theorem Bundle.identityState?_congr {left right : Bundle} (id : left.id = right.id)
    (header : left.header = right.header) (name : Name) :
    left.identityState? name = right.identityState? name :=
  identityState?_of_types id (congrArg Header.nodeType header) (congrArg Header.mixins header) name

namespace Contents

variable {contents before after : Contents}

theorem property_of_entry {id : PropertyId} {stored : StoredProperty}
    (found : entryOf contents.bundles id = some stored) :
    contents.property id = (contents.stateOf stored).mapError RepositoryError.storage := by
  unfold property
  rw [found]

theorem property_of_no_entry {id : PropertyId} (plain : id.name.isIdentity = false)
    (absent : entryOf contents.bundles id = none) : contents.view.NoProperty id := by
  change contents.property id = _
  unfold property
  rw [absent]
  cases contents.bundles id.node with
  | none => rfl
  | some bundle =>
      rw [Option.bind_some, bundle.identityState?_plain plain]

theorem property_of_identity (proper : contents.Proper) {id : NodeId} {bundle : Bundle}
    (held : contents.bundles id = some bundle) {name : Name} {state : Property}
    (identity : bundle.identityState? name = some state) :
    contents.property ⟨id, name⟩ = .ok state := by
  have absent : entryOf contents.bundles ⟨id, name⟩ = none := by
    cases found : entryOf contents.bundles ⟨id, name⟩ with
    | none => rfl
    | some stored =>
        rw [bundle.identityState?_plain (proper _ stored found).plain] at identity
        cases identity
  unfold property
  rw [absent, held, Option.bind_some, identity]

theorem noNode_of_absent {id : NodeId} (absent : contents.bundles id = none) :
    contents.view.NoNode id := by
  constructor
  · change contents.node id = _
    unfold node
    rw [absent]
  · intro name
    change contents.property ⟨id, name⟩ = _
    unfold property
    rw [entryOf_of_none absent, absent]
    rfl

theorem value_congr {stored : StoredValue}
    (same : ∀ blob, stored.blob? = some blob → after.blobs blob = before.blobs blob) :
    after.value stored = before.value stored := by
  cases stored with
  | inline kept => rfl
  | blob blob length =>
      unfold value
      simp only [same blob rfl]

theorem values_congr {list : List StoredValue}
    (same : ∀ blob ∈ list.filterMap StoredValue.blob?, after.blobs blob = before.blobs blob) :
    list.mapM after.value = list.mapM before.value := by
  induction list with
  | nil => rfl
  | cons stored rest ih =>
      have first : after.value stored = before.value stored := by
        refine value_congr (fun blob held => same blob ?_)
        exact List.mem_filterMap.mpr ⟨stored, List.mem_cons_self, held⟩
      have others := ih (fun blob held => by
        obtain ⟨other, member, own⟩ := List.mem_filterMap.mp held
        exact same blob (List.mem_filterMap.mpr ⟨other, List.mem_cons_of_mem _ member, own⟩))
      rw [List.mapM_cons, List.mapM_cons, first, others]

theorem stateOf_congr {stored : StoredProperty}
    (same : ∀ blob ∈ stored.blobs, after.blobs blob = before.blobs blob) :
    after.stateOf stored = before.stateOf stored := by
  unfold stateOf
  rw [values_congr same]

end Contents

namespace StoredValue

theorem Keeps.value {contents : Contents} {threshold place : Nat} {property : PropertyId}
    {value : Value} {stored : StoredValue}
    (keeps : stored.Keeps contents threshold property place value) :
    contents.value stored = .ok value := by
  cases stored with
  | inline kept => exact congrArg Except.ok keeps.1
  | blob blob length =>
      obtain ⟨bytes, rfl, _large, _counted, _given, held⟩ := keeps
      exact Contents.value_of_held held

theorem KeepAll.values {contents : Contents} {threshold : Nat} {property : PropertyId}
    {place : Nat} {values : List Value} {stored : List StoredValue}
    (keepAll : KeepAll contents threshold property place values stored) :
    stored.mapM contents.value = .ok values := by
  induction values generalizing place stored with
  | nil =>
      cases stored with
      | nil => rfl
      | cons head tail => exact keepAll.elim
  | cons value rest ih =>
      cases stored with
      | nil => exact keepAll.elim
      | cons head tail =>
          rw [List.mapM_cons, keepAll.1.value, ih keepAll.2]
          rfl

end StoredValue

theorem StoredProperty.Keeps.state {contents : Contents} {threshold : Nat} {state : Property}
    {stored : StoredProperty} (keeps : stored.Keeps contents threshold state) :
    contents.stateOf stored = .ok { state with status := .existing } := by
  unfold Contents.stateOf
  rw [keeps.values.values, keeps.id, keeps.type, keeps.multiple, keeps.modCount]
  rfl

/-- What a loaded node lists. -/
theorem Bundle.contains_propertyNames (bundle : Bundle) (name : Name) :
    SortedMap.contains bundle.propertyNames name = true ↔
      (name = Name.uuid ∧ bundle.isReferenceable = true) ∨
      (name = Name.mixinTypes ∧ bundle.mixins.isEmpty = false) ∨
      name = Name.primaryType ∨ bundle.properties.contains name = true := by
  have added (set : SortedSet Name) (applies : Bool) (other : Name) :
      SortedMap.contains (if applies then SortedSet.add set other else set) name = true ↔
        (name = other ∧ applies = true) ∨ SortedMap.contains set name = true := by
    cases applies with
    | false => simp
    | true =>
        rw [if_pos rfl, and_iff_left rfl]
        exact SortedMap.contains_insert set other name ()
  rw [propertyNames, added, added, Bool.not_eq_true', SortedSet.add, SortedMap.contains_insert,
    SortedMap.contains_ofElements, SortedMap.mem_keys]

/-- The names that a loaded node lists, identity properties apart, are those of its entries. -/
theorem Bundle.contains_toNode (bundle : Bundle) {name : Name} (plain : name.isIdentity = false) :
    bundle.toNode.properties.contains name = true ↔ bundle.properties.find? name ≠ none := by
  simp only [Name.isIdentity, Bool.or_eq_false_iff, decide_eq_false_iff_not] at plain
  change SortedMap.contains bundle.propertyNames name = true ↔ _
  rw [contains_propertyNames, ← Option.isSome_iff_ne_none, SortedMap.contains]
  tauto

theorem Contents.hasNode {contents : Contents} {node : Node}
    (held : headerOf contents.bundles node.id = some node.header) :
    ∃ bundle, contents.bundles node.id = some bundle ∧
      contents.view.HasNode node bundle.toNode := by
  obtain ⟨bundle, found, header⟩ := Option.map_eq_some_iff.mp held
  refine ⟨bundle, found, ?_, contents.filed found, header, rfl⟩
  change contents.node node.id = _
  unfold Contents.node
  rw [found]

/-! ### After a store that went well -/

/-- The last change that touches a property has its way: what it puts is in the draft, and stands
for what the log says as long as its blobs are no other property's. -/
theorem Drafted.entry_put {faults : Faults} {threshold : Nat} {log : ChangeLog}
    {before cleared : Contents} {draft : Draft}
    (drafted : Drafted faults threshold log before cleared draft) (proper : before.Proper)
    {state : Property} {early late : List Change}
    (split : log.changes = early ++ .put state :: late)
    (last : ¬ Change.AnyTouches log.Deletes late state.id)
    (plain : state.id.name.isIdentity = false) :
    ∃ stored, entryOf draft.bundle? state.id = some stored ∧
      ((∀ other, log.Touches other → ∀ blob ∈ stored.blobs, draft.contents.SlotOf other blob →
        other = state.id) →
      draft.contents.stateOf stored = .ok { state with status := .existing }) := by
  have made := drafted.made
  rw [split] at made
  obtain ⟨_reached, _next, earlier, makes, later⟩ := made.around
  have owns := (Change.staged_of_chain earlier
    (Draft.start_owns (drafted.clears.proper proper))).1
  have spares := (Change.staged_of_chain later (makes.owns owns)).2
  obtain ⟨_bundle, _released, stored, _held, _releases, _stores, keeps, found⟩ :=
    (makes.puts plain).entry
  refine ⟨stored, (Change.entry_of_chain later last).trans found, fun apart => ?_⟩
  rw [← keeps.state]
  apply Contents.stateOf_congr
  intro blob own
  apply spares.blobs
  -- What comes later is about other properties, and the blob is not theirs.
  intro property touched given
  have touches : log.Touches property := by
    obtain ⟨change, member, touches⟩ := touched
    refine ⟨change, ?_, touches⟩
    rw [split]
    exact List.mem_append_right _ (List.mem_cons_of_mem _ member)
  exact last (apart property touches blob own given ▸ touched)

theorem Drafted.entry_drop {faults : Faults} {threshold : Nat} {log : ChangeLog}
    {before cleared : Contents} {draft : Draft}
    (drafted : Drafted faults threshold log before cleared draft) {state : Property}
    {early late : List Change} (split : log.changes = early ++ .drop state :: late)
    (last : ¬ Change.AnyTouches log.Deletes late state.id) (stays : ¬ log.Deletes state.id.node) :
    entryOf draft.bundle? state.id = none := by
  have made := drafted.made
  rw [split] at made
  obtain ⟨_reached, _next, _earlier, makes, later⟩ := made.around
  rw [Change.entry_of_chain later last]
  exact makes.entry_drop stays

namespace Completed

variable {faults : Faults} {threshold : Nat} {log : ChangeLog} {before cleared after : Contents}
  {draft : Draft}

theorem deleted (completed : Completed log draft before after)
    (drafted : Drafted faults threshold log before cleared draft) (distinct : log.Distinct)
    {node : Node} (member : node ∈ log.deletedNodes) : after.bundles node.id = none := by
  rw [completed.bundles]
  apply Change.absent_of_chain drafted.made
  rw [Draft.start_of_not_added (fun added isAdded => distinct.added_deleted isAdded member)]
  exact drafted.absent node member

theorem header_added (completed : Completed log draft before after)
    (drafted : Drafted faults threshold log before cleared draft) (distinct : log.Distinct)
    {node : Node} (member : node ∈ log.addedNodes) :
    headerOf after.bundles node.id = some node.header := by
  obtain ⟨other, listed, named, found⟩ := Draft.start_of_added cleared member
  obtain rfl := distinct.added_once listed member named
  rw [completed.bundles, Change.header_of_chain drafted.made]
  · unfold headerOf
    rw [found]
    rfl
  · intro updated isUpdated same
    exact distinct.added_modified member (ChangeLog.mem_changes_update.mp isUpdated) same.symm

theorem header_modified (completed : Completed log draft before after)
    (drafted : Drafted faults threshold log before cleared draft) (distinct : log.Distinct)
    {node : Node} (member : node ∈ log.modifiedNodes) :
    headerOf after.bundles node.id = some node.header := by
  rw [completed.bundles]
  exact Change.updated_of_chain drafted.made distinct.subjects
    (ChangeLog.mem_changes_update.mpr member)

theorem entry_put (completed : Completed log draft before after)
    (drafted : Drafted faults threshold log before cleared draft) (proper : before.Proper)
    (distinct : log.Distinct) (apart : log.Apart before after) {state : Property}
    (puts : log.Puts state) (plain : state.id.name.isIdentity = false) :
    ∃ stored, entryOf after.bundles state.id = some stored ∧
      after.stateOf stored = .ok { state with status := .existing } := by
  obtain ⟨early, late, split⟩ := List.append_of_mem (ChangeLog.mem_changes_put.mpr puts)
  have last : ¬ Change.AnyTouches log.Deletes late state.id := by
    intro given
    obtain ⟨change, member, touches⟩ := given
    exact distinct.last split change member touches.subject
  obtain ⟨stored, found, reads⟩ := drafted.entry_put proper split last plain
  refine ⟨stored, ?_, ?_⟩
  · rw [completed.bundles]
    exact found
  · rw [← reads]
    · exact Contents.stateOf_congr (fun blob _own => by rw [completed.blobs])
    · intro other touches blob own theirs
      have mine := (drafted.owns proper state.id stored found).slotOf own
      exact apart touches.names (Or.inl puts.names) (completed.slotOf theirs)
        (completed.slotOf mine)

theorem entry_dropped (completed : Completed log draft before after)
    (drafted : Drafted faults threshold log before cleared draft) (distinct : log.Distinct)
    {state : Property} (member : state ∈ log.deletedProperties)
    (stays : ¬ log.Deletes state.id.node) : entryOf after.bundles state.id = none := by
  obtain ⟨early, late, split⟩ := List.append_of_mem (ChangeLog.mem_changes_drop.mpr member)
  rw [completed.bundles]
  apply drafted.entry_drop split _ stays
  intro touches
  obtain ⟨change, listed, touched⟩ := touches
  exact distinct.last split change listed touched.subject

theorem entry_unput (completed : Completed log draft before after)
    (drafted : Drafted faults threshold log before cleared draft) {node : Node}
    (member : node ∈ log.addedNodes) {name : Name}
    (unput : ∀ state, log.Puts state → state.id ≠ ⟨node.id, name⟩) :
    entryOf after.bundles ⟨node.id, name⟩ = none := by
  rw [completed.bundles]
  exact Change.no_entry_of_chain drafted.made
    (fun state listed => unput state (ChangeLog.mem_changes_put.mp listed))
    (Draft.start_entry_of_added member name)

/-- What the log does not name is as it was, but for deleted and added nodes. -/
theorem entry_other (completed : Completed log draft before after)
    (drafted : Drafted faults threshold log before cleared draft) {property : PropertyId}
    (unnamed : ¬ log.Names property) (stays : ¬ log.Deletes property.node)
    (others : ∀ node ∈ log.addedNodes, node.id ≠ property.node) :
    entryOf after.bundles property = entryOf before.bundles property := by
  rw [completed.bundles, Change.entry_of_chain drafted.made
    (fun touches => unnamed (ChangeLog.Touches.names touches)),
    entryOf_congr (Draft.start_of_not_added others), entryOf_congr (drafted.kept stays)]

theorem state_other (completed : Completed log draft before after)
    (drafted : Drafted faults threshold log before cleared draft) (proper : before.Proper)
    (apart : log.Apart before after) {property : PropertyId} (unnamed : ¬ log.Names property)
    (stays : ¬ log.Deletes property.node) {stored : StoredProperty}
    (found : entryOf before.bundles property = some stored) :
    after.stateOf stored = before.stateOf stored := by
  have spares := drafted.spares proper
  have kept : cleared.bundles property.node ≠ none := by
    rw [drafted.kept stays]
    exact held_of_entry found
  apply Contents.stateOf_congr
  intro blob own
  rw [completed.blobs]
  apply spares.blobs_of_entry proper found kept own
  intro other touches given
  have slot := spares.slotOf ((proper property stored found).slotOf own)
  have same := apart touches.names (Or.inr (by rw [found]; exact Option.some_ne_none stored))
    (completed.slotOf given) (completed.slotOf slot)
  exact unnamed (same ▸ touches.names)

theorem identity (completed : Completed log draft before after)
    (drafted : Drafted faults threshold log before cleared draft) (proper : before.Proper)
    {node : Node} (header : headerOf after.bundles node.id = some node.header) {name : Name}
    {state : Property} (identity : (Bundle.ofNode node).identityState? name = some state) :
    after.property ⟨node.id, name⟩ = .ok state := by
  obtain ⟨bundle, found, same⟩ := Option.map_eq_some_iff.mp header
  apply Contents.property_of_identity (completed.proper (drafted.owns proper)) found
  rw [← identity]
  exact Bundle.identityState?_congr (after.filed found) same name

theorem elsewhere (completed : Completed log draft before after)
    (drafted : Drafted faults threshold log before cleared draft) (proper : before.Proper)
    (apart : log.Apart before after) {id : NodeId}
    (others : ∀ item ∈ log.items, item.bundleId ≠ id) :
    after.node id = before.node id ∧
      ∀ name, after.property ⟨id, name⟩ = before.property ⟨id, name⟩ := by
  have stays : ¬ log.Deletes id := by
    intro given
    obtain ⟨node, member, rfl⟩ := given
    exact others (.node node)
      (ChangeLog.mem_items.mpr (Or.inr (Or.inr (ChangeLog.mem_nodes.mp member)))) rfl
  have notAdded : ∀ node ∈ log.addedNodes, node.id ≠ id := by
    intro node member same
    subst same
    exact others (.node node) (ChangeLog.mem_items.mpr (Or.inl (ChangeLog.mem_nodes.mp member))) rfl
  have record : after.bundles id = before.bundles id := by
    rw [completed.bundles, Change.bundle_of_chain drafted.made, Draft.start_of_not_added notAdded,
      drafted.kept stays]
    intro change member same
    obtain ⟨item, listed, about⟩ := ChangeLog.node_of_changes member
    exact others item listed (about.trans same)
  constructor
  · unfold Contents.node
    rw [record]
  · intro name
    have unnamed : ¬ log.Names ⟨id, name⟩ := by
      intro given
      obtain ⟨item, member, named⟩ := given
      exact others item member (congrArg ItemId.bundleId named)
    have same : entryOf after.bundles ⟨id, name⟩ = entryOf before.bundles ⟨id, name⟩ :=
      entryOf_congr record
    unfold Contents.property
    rw [same, record]
    cases found : entryOf before.bundles ⟨id, name⟩ with
    | none => rfl
    | some stored =>
        exact congrArg (Except.mapError RepositoryError.storage)
          (completed.state_other drafted proper apart unnamed stays found)

theorem effect (completed : Completed log draft before after)
    (drafted : Drafted faults threshold log before cleared draft) (proper : before.Proper)
    (distinct : log.Distinct) (targets : (log.references.map References.target).Nodup)
    (apart : log.Apart before after) : log.Effect before.view after.view := by
  have written {state : Property} (puts : log.Puts state)
      (plain : state.id.name.isIdentity = false) :=
    completed.entry_put drafted proper distinct apart puts plain
  constructor
  case deleted =>
    intro node member
    exact Contents.noNode_of_absent (completed.deleted drafted distinct member)
  case added =>
    intro node member
    obtain ⟨bundle, found, has⟩ := Contents.hasNode (completed.header_added drafted distinct member)
    refine ⟨bundle.toNode, has, fun name plain => ?_⟩
    have entry : entryOf after.bundles ⟨node.id, name⟩ = bundle.properties.find? name :=
      entryOf_of_some found
    rw [bundle.contains_toNode plain, ← entry]
    constructor
    · intro present
      by_contra unput
      exact present (completed.entry_unput drafted member
        (fun state puts same => unput ⟨state, puts, same⟩))
    · intro given
      obtain ⟨state, puts, same⟩ := given
      obtain ⟨stored, there, _state⟩ := written puts (by rw [same]; exact plain)
      rw [← same, there]
      exact Option.some_ne_none stored
  case addedOnly =>
    intro node member name plain unput
    exact Contents.property_of_no_entry plain (completed.entry_unput drafted member unput)
  case modified =>
    intro node member
    obtain ⟨bundle, _found, has⟩ :=
      Contents.hasNode (completed.header_modified drafted distinct member)
    exact ⟨bundle.toNode, has⟩
  case put =>
    intro state puts plain
    obtain ⟨stored, found, reads⟩ := written puts plain
    change after.property state.id = _
    rw [Contents.property_of_entry found, reads]
    rfl
  case dropped =>
    intro state member plain
    by_cases deletes : log.Deletes state.id.node
    · obtain ⟨node, listed, named⟩ := deletes
      have absent := completed.deleted drafted distinct listed
      rw [named] at absent
      exact Contents.property_of_no_entry plain (entryOf_of_none absent)
    · exact Contents.property_of_no_entry plain
        (completed.entry_dropped drafted distinct member deletes)
  case others =>
    intro property plain unnamed stays notAdded
    have same := completed.entry_other drafted unnamed stays notAdded
    cases found : entryOf before.bundles property with
    | none =>
        have absent := Contents.property_of_no_entry plain (same.trans found)
        exact absent.trans (Contents.property_of_no_entry plain found).symm
    | some stored =>
        change after.property property = before.property property
        rw [Contents.property_of_entry (same.trans found), Contents.property_of_entry found,
          completed.state_other drafted proper apart unnamed stays found]
  case identity =>
    intro node either name state gives
    rcases either with isAdded | isModified
    · exact completed.identity drafted proper (completed.header_added drafted distinct isAdded) gives
    · exact completed.identity drafted proper
        (completed.header_modified drafted distinct isModified) gives
  case elsewhere =>
    intro id others
    exact completed.elsewhere drafted proper apart others
  case listed =>
    intro references member
    obtain ⟨written, _same, chain⟩ := completed.listed
    have last := Contents.listed_of_chain chain targets member
    change after.referencesTo references.target = _
    unfold Contents.referencesTo
    rw [last]
    cases references.isEmpty <;> rfl
  case unlisted =>
    intro target others
    obtain ⟨written, same, chain⟩ := completed.listed
    have last := Contents.unlisted_of_chain chain others
    change after.referencesTo target = before.referencesTo target
    unfold Contents.referencesTo
    rw [last, same]

end Completed

/-- Whatever is asked for after a store that went well, and whatever the repository has been through
before, what is read is what the log says, and for all else what was read before. -/
theorem System.effect_of_store (backend : Backend) (reliable : backend.FailsOnly Faults.none)
    (system : System backend) (reachable : system.Reachable) (threshold : Nat) (log : ChangeLog)
    (distinct : log.Distinct) (targets : (log.references.map References.target).Nodup)
    (after : System backend)
    (stored : (Repository.store threshold log).run serve system = (.ok (), after))
    (apart : log.Apart system.contents after.contents) (requests : List Request) :
    log.Effect system.view (ask requests after).view := by
  obtain ⟨rest, proper⟩ := reachable.atRest
  obtain ⟨restAfter, applied⟩ := rest.store reliable threshold log stored
  obtain ⟨restAsked, same⟩ := restAfter.ask requests
  obtain ⟨_cleared, _draft, drafted, completed⟩ := applied.completed proper
  rw [rest.view reliable, restAsked.view reliable, same]
  exact completed.effect drafted proper distinct targets apart

namespace System

/-- Memory with nothing in it, behind an empty cache. -/
def blank : System MemoryStorage.backend :=
  fresh ⟨MemoryStorage.empty, MemoryStorage.empty_sound⟩ 100000 1 (fun _ => 0)

theorem blank_empty : blank.contents.Empty :=
  ⟨fun _id => rfl, fun _target => rfl, fun _blob => rfl⟩

theorem blank_reachable : blank.Reachable := Reachable.empty blank_empty 100000 1 (fun _ => 0)

def letter : PropertyId := ⟨NodeId.zero, ⟨"", "letter"⟩⟩

/-- A node with a property that is kept as a blob, and a list of references to the node. -/
def letterLog : ChangeLog where
  added :=
    [.node (Node.fresh NodeId.zero Name.unstructured none),
      .property (Property.single letter (.binary [1, 2, 3]))]
  modified := []
  deleted := []
  references := [⟨NodeId.zero, SortedSet.ofElements [letter]⟩]

theorem letterLog_names {property : PropertyId} (names : letterLog.Names property) :
    property = letter := by
  obtain ⟨item, member, named⟩ := names
  rcases List.mem_cons.mp member with rfl | further
  · cases named
  · rcases List.mem_cons.mp further with rfl | never
    · exact (ItemId.property.inj named).symm
    · cases never

theorem letterLog_apart (after : Contents) : letterLog.Apart blank.contents after := by
  intro left right blob names either _left _right
  rcases either with also | stored
  · rw [letterLog_names names, letterLog_names also]
  · exact absurd (entryOf_of_none (blank_empty.bundles right.node)) stored

def afterLetter : System MemoryStorage.backend := ((Repository.store 2 letterLog).run serve blank).2

theorem letter_ends : (Repository.store 2 letterLog).run serve blank = (.ok (), afterLetter) := by
  have succeeds : ((Repository.store 2 letterLog).run serve blank).1.toBool = true := by
    decide +kernel
  unfold afterLetter
  rcases outcome : (Repository.store 2 letterLog).run serve blank with ⟨result, after⟩
  rw [outcome] at succeeds
  cases result with
  | error error => cases succeeds
  | ok _unit => rfl

theorem letterLog_distinct : letterLog.Distinct := by
  unfold ChangeLog.Distinct
  decide +kernel

theorem effect_of_letter :
    letterLog.Effect blank.view (ask [.loadNode NodeId.zero] afterLetter).view :=
  effect_of_store MemoryStorage.backend MemoryStorage.backend_failsOnly blank blank_reachable 2
    letterLog letterLog_distinct (by decide +kernel) afterLetter letter_ends (letterLog_apart _)
    [.loadNode NodeId.zero]

end System

end BundleStore
