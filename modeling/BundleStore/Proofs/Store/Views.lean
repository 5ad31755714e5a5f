import BundleStore.Command.Run
import BundleStore.Proofs.Store.Frame

set_option autoImplicit false

/-! The ways in which the properties of a node are seen: its list of names, the test for one name,
and the loading of one. The list and the test name what is stored and what the header gives; what
they name can be loaded, if its blobs can be read. An entry is filed under its own name, however
the storage came about, so what is loaded bears the name that was asked for. -/

namespace BundleStore

/-! ### What is so of every entry -/

/-- It is so of every entry of the records. -/
def Records.Each (holds : PropertyId → StoredProperty → Prop) (records : Records) : Prop :=
  ∀ property stored, entryOf records property = some stored → holds property stored

/-- It is so of every entry, stored or staged. -/
structure Draft.Each (holds : PropertyId → StoredProperty → Prop) (draft : Draft) : Prop where
  staged : Records.Each holds draft.bundle?
  stored : Records.Each holds draft.contents.bundles

section

variable {holds : PropertyId → StoredProperty → Prop} {faults : Faults} {threshold : Nat}
  {gone : NodeId → Prop} {log : ChangeLog} {before after cleared : Contents} {draft : Draft}

theorem Records.Each.fewer {records later : Records} (each : records.Each holds)
    (fewer : ∀ property stored, entryOf later property = some stored →
      entryOf records property = some stored) : later.Each holds :=
  fun property stored found => each property stored (fewer property stored found)

namespace Contents

theorem Deletes.each {node : Node} (deletes : Deletes faults node before after)
    (each : Records.Each holds before.bundles) : Records.Each holds after.bundles := by
  refine each.fewer (fun property stored found => ?_)
  rw [deletes.bundles] at found
  exact (without_cleared before node.id).entry found

theorem DeletesHalf.each {node : Node} (half : DeletesHalf node before after)
    (each : Records.Each holds before.bundles) : Records.Each holds after.bundles := by
  rcases half with rfl | rfl
  · exact each
  · exact each.fewer (fun property stored found => (without_cleared before node.id).entry found)

end Contents

theorem Draft.start_each (nodes : List Node) {contents : Contents}
    (each : Records.Each holds contents.bundles) : (Draft.start nodes contents).Each holds :=
  ⟨each.fewer (fun _property _stored found => Draft.start_entry nodes found), each⟩

theorem Draft.Written.each {after : Contents} (written : draft.Written after)
    (each : draft.Each holds) : Records.Each holds after.bundles := by
  intro property stored found
  rcases written.records property.node with same | staged
  · exact each.stored property stored ((entryOf_congr same).symm.trans found)
  · exact each.staged property stored ((entryOf_congr staged).symm.trans found)

variable (new : ∀ {contents state stored}, state.id.name.isIdentity = false →
  stored.Keeps contents threshold state → holds state.id stored)

include new

theorem Change.Makes.each {change : Change} {first last : Draft}
    (makes : change.Makes faults threshold gone first last) (each : first.Each holds) :
    last.Each holds := by
  refine ⟨fun _property _stored found =>
    makes.entries each.staged (fun _state _stored plain keeps => new plain keeps) found, ?_⟩
  rw [makes.aside.1]
  exact each.stored

theorem Draft.each_of_chains
    (deleted : Chain (Contents.Deletes faults) log.deletedNodes before cleared)
    (made : Chain (Change.Makes faults threshold log.Deletes) log.changes
      (Draft.start log.addedNodes cleared) draft)
    (each : Records.Each holds before.bundles) : draft.Each holds := by
  have left := deleted.preserves (fun now => Records.Each holds now.bundles)
    (fun _node _member _now _next deletes each => deletes.each each) each
  exact made.preserves (fun draft => draft.Each holds)
    (fun _change _member _now _next makes each => makes.each new each)
    (Draft.start_each log.addedNodes left)

/-- A store that goes well keeps what is so of every entry, if it is so of what it stores. -/
theorem Applied.each (applied : Applied faults threshold log before after)
    (each : Records.Each holds before.bundles) : Records.Each holds after.bundles := by
  obtain ⟨cleared, draft, bundles, written, deleted, made, gives, wrote, listed⟩ := applied
  rw [(Contents.relisted_of_chain listed).bundles]
  exact (Draft.written_of_chain gives wrote).each (Draft.each_of_chains new deleted made each)

/-- So does a store that fails. -/
theorem Abandoned.each (abandoned : Abandoned faults threshold log before after)
    (each : Records.Each holds before.bundles) : Records.Each holds after.bundles := by
  cases abandoned with
  | deleting cut =>
      obtain ⟨node, _member, now, held, half⟩ :=
        cut.broken_after (fun now => Records.Each holds now.bundles)
          (fun _node _member _now _next deletes each => deletes.each each) each
      exact half.each held
  | staging cleared deleted cut =>
      have left := deleted.preserves (fun now => Records.Each holds now.bundles)
        (fun _node _member _now _next deletes each => deletes.each each) each
      obtain ⟨change, _member, now, held, spoils⟩ := cut.broken_after (fun draft => draft.Each holds)
        (fun _change _member _now _next makes each => makes.each new each)
        (Draft.start_each log.addedNodes left)
      rw [spoils.bundles]
      exact held.stored
  | writing cleared draft bundles deleted made gives cut =>
      exact (Draft.written_of_breaks gives cut).each (Draft.each_of_chains new deleted made each)
  | listing cleared draft bundles written deleted made gives wrote cut =>
      rw [(Contents.relisted_of_breaks cut).bundles]
      exact (Draft.written_of_chain gives wrote).each (Draft.each_of_chains new deleted made each)

end

namespace System

variable {backend : Backend} {system : System backend}
  {holds : PropertyId → StoredProperty → Prop}

section

variable (new : ∀ {threshold contents state stored}, state.id.name.isIdentity = false →
  stored.Keeps contents threshold state → holds state.id stored)

include new

theorem writes_each (faults : Faults) (threshold : Nat) (write : Write) :
    Writes faults (fun contents => Records.Each holds contents.bundles) (write.task threshold) := by
  cases write with
  | store log =>
      exact Writes.store threshold log (fun _before _after each applied => applied.each new each)
        (fun _before _after each abandoned => abandoned.each new each)
  | externalUpdate log => exact Writes.externalUpdate log
  | check ids recursive repair =>
      exact Writes.check ids recursive repair (fun _before _after each mended =>
        each.fewer (fun _property _stored found => mended.entry found))

/-- What is so of all that is stored is so of every entry, however the storage came about. -/
theorem Lived.each (lived : system.Lived) :
    system.AtRest ∧ Records.Each holds system.contents.bundles := by
  induction lived with
  | empty empty budget shards spread =>
      exact ⟨fresh_atRest _ budget shards spread,
        fun property _stored found => absurd (empty.bundles property.node) (held_of_entry found)⟩
  | opened _lived fewer budget shards spread ih =>
      exact ⟨fresh_atRest _ budget shards spread, ih.2.fewer fewer⟩
  | @traffic start _lived threshold traffic reaches quiet ih =>
      obtain ⟨now, sound, _valid, writing, _reading⟩ := Traffic.reaches_kept backend.failsOnly_any
        (writes_each new Faults.any threshold) reaches (Traffic.idle_kept ih.1 rfl ih.2)
      rw [quiet] at writing
      constructor
      · exact sound.atRest writing.1
      · rw [sound.contents]
        exact writing.2

end

end System

/-- The entry is filed under its own identifier. -/
def StoredProperty.Filed (property : PropertyId) (stored : StoredProperty) : Prop :=
  stored.id = property

theorem System.Lived.filed {backend : Backend} {system : System backend} (lived : system.Lived) :
    system.AtRest ∧ Records.Each StoredProperty.Filed system.contents.bundles :=
  lived.each (fun _plain keeps => keeps.id)

/-! ### What a node's properties are called -/

namespace Bundle

variable {bundle : Bundle} {name : Name}

theorem mem_identityNames : name ∈ identityNames ↔ name.isIdentity = true := by
  simp only [identityNames, List.mem_cons, List.not_mem_nil, or_false, Name.isIdentity,
    Bool.or_eq_true, decide_eq_true_eq]
  tauto

theorem hasProperty_iff (bundle : Bundle) (name : Name) : bundle.hasProperty name = true ↔
    bundle.properties.contains name = true ∨ name = Name.primaryType ∨
      (name = Name.mixinTypes ∧ bundle.mixins.isEmpty = false) ∨
      (name = Name.uuid ∧ bundle.isReferenceable = true) := by
  rw [hasProperty]
  by_cases stored : bundle.properties.contains name = true
  · rw [if_pos stored]
    exact iff_of_true rfl (Or.inl stored)
  · rw [if_neg stored, or_iff_right stored]
    by_cases primary : name = Name.primaryType
    · rw [if_pos primary]
      exact iff_of_true rfl (Or.inl primary)
    · rw [if_neg primary, or_iff_right primary]
      by_cases mixins : name = Name.mixinTypes
      · have other : name ≠ Name.uuid := by
          rw [mixins]
          decide
        rw [if_pos mixins, and_iff_right mixins, or_iff_left (fun both => other both.1),
          Bool.not_eq_true']
      · rw [if_neg mixins, or_iff_right (fun both => mixins both.1)]
        by_cases uuid : name = Name.uuid
        · rw [if_pos uuid, and_iff_right uuid]
        · rw [if_neg uuid]
          exact iff_of_false Bool.false_ne_true (fun both => uuid both.1)

/-- The list of names and the test for a name are put together apart from each other, and say the
same. -/
theorem contains_toNode_eq (bundle : Bundle) (name : Name) :
    SortedMap.contains bundle.toNode.properties name = bundle.hasProperty name := by
  rw [Bool.eq_iff_iff, hasProperty_iff]
  refine (contains_propertyNames bundle name).trans ?_
  tauto

/-- Every identity property can be computed, and nothing else. -/
theorem isSome_identityState? :
    (bundle.identityState? name).isSome = true ↔ name ∈ identityNames := by
  rw [mem_identityNames, Name.isIdentity, identityState?]
  by_cases uuid : name = Name.uuid
  · rw [if_pos uuid]
    simp [uuid]
  · by_cases primary : name = Name.primaryType
    · rw [if_neg uuid, if_pos primary]
      simp [primary]
    · by_cases mixins : name = Name.mixinTypes
      · rw [if_neg uuid, if_neg primary, if_pos mixins]
        simp [mixins]
      · simp [uuid, primary, mixins]

theorem id_of_identityState? {state : Property} (given : bundle.identityState? name = some state) :
    state.id = ⟨bundle.id, name⟩ := by
  rw [identityState?] at given
  split at given
  · cases given
    rfl
  · split at given
    · cases given
      rfl
    · split at given
      · cases given
        rfl
      · cases given

end Bundle

/-! ### What reading comes to, whatever fails -/

variable {faults : Faults} {contents : Contents} {id : NodeId} {bundle : Bundle} {name : Name}

/-- The record of the node could not be loaded. -/
def Unread {α : Type} (faults : Faults) (contents : Contents) (id : NodeId)
    (result : Except RepositoryError α) : Prop :=
  ∃ cause, faults (.loadBundle id) cause contents ∧ result = .error (.storage cause)

theorem fetchValue_still (stored : StoredValue) :
    (StoredProperty.fetchValue stored).Meets (writing faults)
      (fun _ next => next = ⟨.free, contents⟩) (fun _ _ => True) ⟨.free, contents⟩ := by
  cases stored with
  | inline value => exact rfl
  | blob blob length =>
      rw [StoredProperty.fetchValue, Task.meets_bind]
      refine writing_call trivial (fun bytes after does => ?_) (fun _error _after _fault _fails =>
        trivial)
      obtain ⟨rfl, _held⟩ := does
      exact rfl

theorem fetchValues_still (list : List StoredValue) :
    (list.mapM StoredProperty.fetchValue).Meets (writing faults)
      (fun _ next => next = ⟨.free, contents⟩) (fun _ _ => True) ⟨.free, contents⟩ := by
  refine Task.keeps_mapM writing_monotone (fun stored _member now same => ?_) rfl
  subst same
  exact fetchValue_still stored

theorem StoredProperty.toProperty_still (stored : StoredProperty) :
    stored.toProperty.Meets (writing faults)
      (fun state next => next = ⟨.free, contents⟩ ∧ state.id = stored.id) (fun _ _ => True)
      ⟨.free, contents⟩ := by
  rw [toProperty, Task.meets_bind]
  refine (fetchValues_still stored.values).mono writing_monotone ?_ (fun _error _next failed => failed)
  intro values next same
  exact ⟨same, rfl⟩

namespace Repository

/-- A stored node is fetched as its record is, unless that cannot be loaded. -/
theorem fetch_stored (held : contents.bundles id = some bundle) :
    (fetch id).Meets (writing faults)
      (fun found next => next = ⟨.free, contents⟩ ∧ ∃ fetched : Bundle, found = some fetched ∧
        fetched.Ready ∧ fetched.record = bundle)
      (fun error _ => ∃ cause, faults (.loadBundle id) cause contents ∧ error = .storage cause)
      ⟨.free, contents⟩ := by
  refine (fetch_writing id).mono writing_monotone ?_ ?_
  · intro found next met
    obtain ⟨rfl, record, ready⟩ := met
    obtain ⟨fetched, rfl, same⟩ := Option.map_eq_some_iff.mp (record.trans held)
    exact ⟨rfl, fetched, rfl, ready fetched rfl, same⟩
  · intro error next failed
    obtain ⟨_same, cause, rfl, fault⟩ := failed
    exact ⟨cause, fault, rfl⟩

theorem loadNode_stored (held : contents.bundles id = some bundle) :
    (loadNode id).Meets (writing faults)
      (fun node next => next = ⟨.free, contents⟩ ∧ node = bundle.toNode)
      (fun error _ => ∃ cause, faults (.loadBundle id) cause contents ∧ error = .storage cause)
      ⟨.free, contents⟩ := by
  rw [loadNode, fetchNode, bind_assoc, Task.meets_bind]
  refine (fetch_stored held).mono writing_monotone ?_ (fun _error _next failed => failed)
  intro found next met
  obtain ⟨rfl, fetched, rfl, _ready, rfl⟩ := met
  exact ⟨rfl, rfl⟩

theorem existsProperty_stored (held : contents.bundles id = some bundle) (name : Name) :
    (existsProperty ⟨id, name⟩).Meets (writing faults)
      (fun there next => next = ⟨.free, contents⟩ ∧ there = bundle.hasProperty name)
      (fun error _ => ∃ cause, faults (.loadBundle id) cause contents ∧ error = .storage cause)
      ⟨.free, contents⟩ := by
  rw [existsProperty, Task.meets_bind]
  refine (fetch_stored held).mono writing_monotone ?_ (fun _error _next failed => failed)
  intro found next met
  obtain ⟨rfl, fetched, rfl, _ready, rfl⟩ := met
  exact ⟨rfl, rfl⟩

/-- The node has the property: it is stored, or follows from the header of any node. -/
def Known (bundle : Bundle) (name : Name) : Prop :=
  bundle.properties.contains name = true ∨ name ∈ Bundle.identityNames

/-- What is given when a property is loaded of a node that is stored: what its entry stands for, or
what follows from the header if it has none. -/
inductive Loaded (bundle : Bundle) (property : PropertyId) (state : Property) : Prop where
  | stored {entry : StoredProperty} (found : bundle.properties.find? property.name = some entry)
      (own : state.id = property)
  | identity (absent : bundle.properties.find? property.name = none)
      (given : bundle.identityState? property.name = some state)

/-- What is said when a property cannot be loaded of a node that is stored: the node does not know
it, or a call has failed that its loading needs. -/
inductive Missed (faults : Faults) (contents : Contents) (bundle : Bundle) (property : PropertyId) :
    RepositoryError → Prop where
  | unknown (unknown : ¬ Known bundle property.name) :
      Missed faults contents bundle property (.notFound (.property property))
  | unread {cause : StorageError} (fault : faults (.loadBundle property.node) cause contents) :
      Missed faults contents bundle property (.storage cause)
  | unfetched {cause : StorageError} (stored : bundle.properties.contains property.name = true) :
      Missed faults contents bundle property (.storage cause)

/-- What the list and the test name, the node knows. -/
theorem known_of_hasProperty (has : bundle.hasProperty name = true) : Known bundle name :=
  ((bundle.hasProperty_iff name).mp has).imp_right (fun header => by
    rcases header with rfl | ⟨rfl, _mixins⟩ | ⟨rfl, _referenceable⟩ <;> simp [Bundle.identityNames])

theorem Loaded.bears {property : PropertyId} {state : Property}
    (loaded : Loaded bundle property state) (named : bundle.id = property.node) :
    state.id = property := by
  cases loaded with
  | stored found own => exact own
  | identity absent given =>
      exact (Bundle.id_of_identityState? given).trans (congrArg (PropertyId.mk · property.name) named)

theorem Loaded.known {property : PropertyId} {state : Property}
    (loaded : Loaded bundle property state) : Known bundle property.name := by
  cases loaded with
  | stored found own => exact Or.inl (congrArg Option.isSome found)
  | identity absent given =>
      exact Or.inr (Bundle.isSome_identityState?.mp (congrArg Option.isSome given))

theorem Missed.cause_of_known {property : PropertyId} {error : RepositoryError}
    (missed : Missed faults contents bundle property error)
    (known : Known bundle property.name) : ∃ cause, error = .storage cause := by
  cases missed with
  | unknown unknown => exact absurd known unknown
  | unread fault => exact ⟨_, rfl⟩
  | unfetched stored => exact ⟨_, rfl⟩

/-- An identity property that no entry hides is given as the header has it, computed before or
not. -/
theorem compute_stored {fetched : Bundle} (property : PropertyId)
    (unstored : fetched.properties.find? property.name = none) :
    (do
      let (state, computed) ← required (.property property) (fetched.computeProperty property.name)
      Task.cache (.keepComputed property.node fetched computed)
      return state : Task RepositoryError Property).Meets (writing faults)
        (fun state next => next = ⟨.free, contents⟩ ∧
          fetched.identityState? property.name = some state)
        (fun error _ => Missed faults contents fetched.record property error)
        ⟨.free, contents⟩ := by
  cases gives : fetched.computeProperty property.name with
  | none =>
      refine Missed.unknown (fun known => ?_)
      rcases known with stored | identity
      · rw [SortedMap.contains, show fetched.record.properties = fetched.properties from rfl,
          unstored] at stored
        cases stored
      · have computes := (@Bundle.isSome_identityState? fetched _).mpr identity
        rw [Option.map_eq_none_iff.mp gives] at computes
        cases computes
  | some given =>
      obtain ⟨state, computed⟩ := given
      obtain ⟨_state, identity, same⟩ := Option.map_eq_some_iff.mp gives
      cases same
      have reads : Reads (Task.cache (.keepComputed property.node fetched _) :
          Task RepositoryError Unit) := Reads.keepComputed gives
      change Task.Meets _ _ _
        (Task.cache (.keepComputed property.node fetched _) >>= fun _ => pure state) _
      rw [Task.meets_bind]
      refine writing_cache reads.1 ?_
      intro _unit after same
      subst same
      exact ⟨rfl, identity⟩

theorem loadProperty_stored (held : contents.bundles id = some bundle)
    (filed : Records.Each StoredProperty.Filed contents.bundles) (name : Name) :
    (loadProperty ⟨id, name⟩).Meets (writing faults)
      (fun state next => next = ⟨.free, contents⟩ ∧ Loaded bundle ⟨id, name⟩ state)
      (fun error _ => Missed faults contents bundle ⟨id, name⟩ error) ⟨.free, contents⟩ := by
  rw [loadProperty_eq, Task.meets_bind]
  refine (fetch_stored held).mono writing_monotone ?_ ?_
  · intro found next met
    obtain ⟨rfl, fetched, rfl, ready, rfl⟩ := met
    change Task.Meets _ _ _ ((fetched.property? name).mapError RepositoryError.storage >>= _) _
    rw [Task.meets_bind, Task.meets_mapError, Bundle.property?]
    cases stored : fetched.properties.find? name with
    | some entry =>
        have own : entry.id = ⟨id, name⟩ := by
          have there : contents.bundles (PropertyId.node ⟨id, name⟩) = some fetched.record := held
          exact filed ⟨id, name⟩ entry ((entryOf_of_some there).trans stored)
        rw [Task.meets_bind]
        refine entry.toProperty_still.mono writing_monotone ?_ ?_
        · intro state next met
          obtain ⟨rfl, same⟩ := met
          exact ⟨rfl, .stored stored (same.trans own)⟩
        · intro cause next _failed
          exact .unfetched (congrArg Option.isSome stored)
    | none =>
        cases kept : fetched.computed.find? name with
        | some state => exact ⟨rfl, .identity stored (ready.computed name state kept)⟩
        | none =>
            refine (compute_stored ⟨id, name⟩ stored).mono writing_monotone ?_
              (fun _error _next missed => missed)
            intro state next met
            exact ⟨met.1, .identity stored met.2⟩
  · intro error next failed
    obtain ⟨cause, fault, rfl⟩ := failed
    exact .unread fault

/-- Properties that the node has are loaded under their names, unless a call fails. -/
theorem loadProperties_stored (held : contents.bundles id = some bundle)
    (filed : Records.Each StoredProperty.Filed contents.bundles) (names : List Name)
    (listed : ∀ name ∈ names, bundle.hasProperty name = true) :
    (names.mapM (fun name => loadProperty ⟨id, name⟩)).Meets (writing faults)
      (fun states next => next = ⟨.free, contents⟩ ∧
        states.map (·.id) = names.map (PropertyId.mk id))
      (fun error _ => ∃ cause, error = .storage cause) ⟨.free, contents⟩ := by
  induction names with
  | nil => exact ⟨rfl, rfl⟩
  | cons name rest ih =>
      rw [List.mapM_cons, Task.meets_bind]
      refine (loadProperty_stored held filed name).mono writing_monotone ?_ ?_
      · intro state next met
        obtain ⟨rfl, loaded⟩ := met
        have named : state.id = ⟨id, name⟩ := loaded.bears (contents.filed held)
        rw [Task.meets_bind]
        refine (ih (fun other member => listed other (List.mem_cons_of_mem _ member))).mono
          writing_monotone ?_ (fun _error _next failed => failed)
        intro states next met
        obtain ⟨rfl, others⟩ := met
        exact ⟨rfl, List.cons_eq_cons.mpr ⟨named, others⟩⟩
      · intro error next missed
        exact missed.cause_of_known (known_of_hasProperty (listed name List.mem_cons_self))

/-- All properties of a node that is stored are loaded under the names that it lists, unless a call
fails. -/
theorem loadWhole_stored (held : contents.bundles id = some bundle)
    (filed : Records.Each StoredProperty.Filed contents.bundles) :
    (Command.loadWhole id).Meets (writing faults)
      (fun whole next => next = ⟨.free, contents⟩ ∧ whole.1 = bundle.toNode ∧
        whole.2.map (·.id) = (SortedSet.elements bundle.toNode.properties).map (PropertyId.mk id))
      (fun error _ => ∃ cause, error = .storage cause) ⟨.free, contents⟩ := by
  have listed (name : Name) (member : name ∈ SortedSet.elements bundle.toNode.properties) :
      bundle.hasProperty name = true := by
    rw [← bundle.contains_toNode_eq]
    exact SortedMap.mem_keys.mp member
  rw [Command.loadWhole, Task.meets_bind]
  refine (loadNode_stored held).mono writing_monotone ?_ ?_
  · intro node next met
    obtain ⟨rfl, rfl⟩ := met
    rw [Task.meets_bind]
    refine (loadProperties_stored held filed _ listed).mono writing_monotone ?_
      (fun _error _next failed => failed)
    intro states next met
    exact ⟨met.1, rfl, met.2⟩
  · intro error next failed
    obtain ⟨cause, _fault, rfl⟩ := failed
    exact ⟨cause, rfl⟩

end Repository

namespace System

variable {backend : Backend} {system : System backend}

def hasProperty (system : System backend) (id : PropertyId) : Except RepositoryError Bool :=
  ((Repository.existsProperty id).run serve system).1

/-- A node with all its properties, as they are shown. -/
def whole (system : System backend) (id : NodeId) :
    Except RepositoryError (Node × List Property) :=
  ((Command.loadWhole id).run serve system).1

/-- What a task gives as soon as it has the record of the node is given, unless that cannot be
loaded. -/
theorem AtRest.given_or_unread (only : backend.FailsOnly faults) (rest : system.AtRest) {α : Type}
    {task : Task RepositoryError α} {value : α}
    (meets : task.Meets (writing faults)
      (fun given next => next = ⟨.free, system.contents⟩ ∧ given = value)
      (fun error _ => ∃ cause, faults (.loadBundle id) cause system.contents ∧
        error = .storage cause) ⟨.free, system.contents⟩) :
    (task.run serve system).1 = .ok value ∨
      Unread faults system.contents id (task.run serve system).1 := by
  obtain ⟨_next, _sound, outcome⟩ := meets.run only rest trivial
  cases given : (task.run serve system).1 with
  | ok found =>
      rw [given] at outcome
      exact Or.inl (congrArg Except.ok outcome.2)
  | error error =>
      rw [given] at outcome
      obtain ⟨cause, fault, rfl⟩ := outcome
      exact Or.inr ⟨cause, fault, rfl⟩

theorem AtRest.property_stored (only : backend.FailsOnly faults) (rest : system.AtRest)
    (held : system.contents.bundles id = some bundle)
    (filed : Records.Each StoredProperty.Filed system.contents.bundles) (name : Name) :
    (∃ state, system.property ⟨id, name⟩ = .ok state ∧
        Repository.Loaded bundle ⟨id, name⟩ state) ∨
      ∃ error, system.property ⟨id, name⟩ = .error error ∧
        Repository.Missed faults system.contents bundle ⟨id, name⟩ error := by
  obtain ⟨_next, _sound, outcome⟩ :=
    (Repository.loadProperty_stored held filed name).run only rest trivial
  unfold System.property
  cases given : ((Repository.loadProperty ⟨id, name⟩).run serve system).1 with
  | ok state =>
      rw [given] at outcome
      exact Or.inl ⟨state, rfl, outcome.2⟩
  | error error =>
      rw [given] at outcome
      exact Or.inr ⟨error, rfl, outcome⟩

theorem AtRest.whole_stored (only : backend.FailsOnly faults) (rest : system.AtRest)
    (held : system.contents.bundles id = some bundle)
    (filed : Records.Each StoredProperty.Filed system.contents.bundles) :
    (∃ states, system.whole id = .ok (bundle.toNode, states) ∧ states.map (·.id) =
        (SortedSet.elements bundle.toNode.properties).map (PropertyId.mk id)) ∨
      ∃ cause, system.whole id = .error (.storage cause) := by
  obtain ⟨_next, _sound, outcome⟩ :=
    (Repository.loadWhole_stored held filed).run only rest trivial
  unfold System.whole
  cases given : ((Command.loadWhole id).run serve system).1 with
  | ok shown =>
      rw [given] at outcome
      obtain ⟨node, states⟩ := shown
      obtain ⟨_same, rfl, named⟩ := outcome
      exact Or.inl ⟨states, rfl, named⟩
  | error error =>
      rw [given] at outcome
      obtain ⟨cause, rfl⟩ := outcome
      exact Or.inr ⟨cause, rfl⟩

/-- Of a node that is stored, however the storage came about and whatever fails now: its list of
names and the test for a name are answered unless its record cannot be loaded, and they agree; what
they name is loaded under its own name unless a call fails, one by one and all at once; and a
property is said not to be found exactly when it is neither stored nor an identity property, unless
the record cannot be loaded. -/
theorem property_views_agree (backend : Backend) (faults : Faults)
    (only : backend.FailsOnly faults) (system : System backend) (lived : system.Lived) (id : NodeId)
    (bundle : Bundle) (stored : system.contents.bundles id = some bundle) :
    (∀ name,
      ((∃ node, system.node id = .ok node) ∨ Unread faults system.contents id (system.node id)) ∧
      ((∃ there, system.hasProperty ⟨id, name⟩ = .ok there) ∨
        Unread faults system.contents id (system.hasProperty ⟨id, name⟩)) ∧
      (∀ node there, system.node id = .ok node → system.hasProperty ⟨id, name⟩ = .ok there →
        (SortedMap.contains node.properties name = true ↔ there = true)) ∧
      (∀ node, system.node id = .ok node → SortedMap.contains node.properties name = true →
        (∃ state, system.property ⟨id, name⟩ = .ok state ∧ state.id = ⟨id, name⟩) ∨
          ∃ cause, system.property ⟨id, name⟩ = .error (.storage cause)) ∧
      (∀ item, system.property ⟨id, name⟩ = .error (.notFound item) →
        bundle.properties.contains name = false ∧ name ∉ Bundle.identityNames) ∧
      (bundle.properties.contains name = false ∧ name ∉ Bundle.identityNames →
        system.property ⟨id, name⟩ = .error (.notFound (.property ⟨id, name⟩)) ∨
          Unread faults system.contents id (system.property ⟨id, name⟩))) ∧
    ((∃ states, system.whole id = .ok (bundle.toNode, states) ∧ states.map (·.id) =
        (SortedSet.elements bundle.toNode.properties).map (PropertyId.mk id)) ∨
      ∃ cause, system.whole id = .error (.storage cause)) := by
  obtain ⟨rest, filed⟩ := lived.filed
  refine ⟨fun name => ?_, rest.whole_stored only stored filed⟩
  have listing : system.node id = .ok bundle.toNode ∨ _ :=
    rest.given_or_unread only (Repository.loadNode_stored stored)
  have testing : system.hasProperty ⟨id, name⟩ = .ok (bundle.hasProperty name) ∨ _ :=
    rest.given_or_unread only (Repository.existsProperty_stored stored name)
  have listed (node : Node) (loaded : system.node id = .ok node) : node = bundle.toNode := by
    rcases listing with same | ⟨cause, _fault, failed⟩
    · exact Except.ok.inj (loaded.symm.trans same)
    · cases loaded.symm.trans failed
  have loading := rest.property_stored only stored filed name
  refine ⟨listing.imp_left (fun same => ⟨_, same⟩), testing.imp_left (fun same => ⟨_, same⟩),
    fun node there loaded tested => ?_, fun node loaded named => ?_, fun item missing => ?_,
    fun unknown => ?_⟩
  · obtain rfl := listed node loaded
    rw [bundle.contains_toNode_eq]
    rcases testing with same | ⟨cause, _fault, failed⟩
    · rw [Except.ok.inj (tested.symm.trans same)]
    · cases tested.symm.trans failed
  · obtain rfl := listed node loaded
    rw [bundle.contains_toNode_eq] at named
    rcases loading with ⟨state, loads, loaded⟩ | ⟨error, failed, missed⟩
    · exact Or.inl ⟨state, loads, loaded.bears (system.contents.filed stored)⟩
    · obtain ⟨cause, rfl⟩ := missed.cause_of_known (Repository.known_of_hasProperty named)
      exact Or.inr ⟨cause, failed⟩
  · rcases loading with ⟨state, loads, _loaded⟩ | ⟨error, failed, missed⟩
    · cases missing.symm.trans loads
    · cases missing.symm.trans failed
      cases missed with
      | unknown unknown =>
          exact ⟨Bool.eq_false_iff.mpr (fun there => unknown (Or.inl there)),
            fun identity => unknown (Or.inr identity)⟩
  · have unknown : ¬ Repository.Known bundle name := by
      rintro (there | identity)
      · exact Bool.false_ne_true (unknown.1.symm.trans there)
      · exact unknown.2 identity
    rcases loading with ⟨_state, _loads, loaded⟩ | ⟨error, failed, missed⟩
    · exact absurd loaded.known unknown
    · cases missed with
      | unknown _unknown => exact Or.inl failed
      | unread fault => exact Or.inr ⟨_, fault, failed⟩
      | unfetched there => exact absurd (Or.inl there) unknown

set_option maxRecDepth 2500 in
/-- The letter is listed with the type of its node, and both are loaded; there is no reply. -/
theorem letter_viewed : ∃ bundle, afterLetter.contents.bundles NodeId.zero = some bundle ∧
    SortedSet.elements bundle.toNode.properties = [letter.name, Name.primaryType] ∧
    (∃ states, afterLetter.whole NodeId.zero = .ok (bundle.toNode, states) ∧
      states.map (·.id) = [letter, ⟨NodeId.zero, Name.primaryType⟩]) ∧
    afterLetter.property ⟨NodeId.zero, ⟨"", "reply"⟩⟩ =
      .error (.notFound (.property ⟨NodeId.zero, ⟨"", "reply"⟩⟩)) := by
  have there : (afterLetter.contents.bundles NodeId.zero).isSome = true := by decide +kernel
  obtain ⟨bundle, stored⟩ := Option.isSome_iff_exists.mp there
  have seen : (afterLetter.contents.bundles NodeId.zero).map (fun bundle =>
      (SortedSet.elements bundle.toNode.properties, bundle.properties.contains ⟨"", "reply"⟩)) =
        some ([letter.name, Name.primaryType], false) := by decide +kernel
  rw [stored] at seen
  obtain ⟨names, absent⟩ := Prod.mk.inj (Option.some.inj seen)
  obtain ⟨views, whole⟩ := property_views_agree MemoryStorage.backend Faults.none
    MemoryStorage.backend_failsOnly afterLetter afterLetter_reachable.lived NodeId.zero bundle stored
  refine ⟨bundle, stored, names, ?_, ?_⟩
  · rcases whole with ⟨states, shown, named⟩ | ⟨cause, failed⟩
    · rw [names] at named
      exact ⟨states, shown, named⟩
    · have shows : (afterLetter.whole NodeId.zero).toOption.isSome = true := by decide +kernel
      rw [failed] at shows
      cases shows
  · obtain ⟨_node, _test, _agree, _loads, _missing, unknown⟩ := views ⟨"", "reply"⟩
    rcases unknown ⟨absent, by decide⟩ with missing | ⟨_cause, fault, _failed⟩
    · exact missing
    · exact fault.elim

end System

end BundleStore
