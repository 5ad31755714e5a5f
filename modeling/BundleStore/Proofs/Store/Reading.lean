import BundleStore.Proofs.Coherence.Requests
import BundleStore.Proofs.Store.Entries

set_option autoImplicit false

/-! What reads give when no call fails: a function of what storage holds, whatever the cache has
kept of it. -/

namespace BundleStore

namespace Contents

def value (contents : Contents) : StoredValue → Except StorageError Value
  | .inline value => .ok value
  | .blob blob _ =>
      match contents.blobs blob with
      | some bytes => .ok (.binary bytes)
      | none => .error (.blobNotFound blob)

theorem value_of_held {contents : Contents} {blob : String} {bytes : List UInt8}
    {length : UInt64} (held : contents.blobs blob = some bytes) :
    contents.value (.blob blob length) = .ok (.binary bytes) := by
  unfold value
  simp only [held]

theorem value_of_absent {contents : Contents} {blob : String} {length : UInt64}
    (absent : contents.blobs blob = none) :
    contents.value (.blob blob length) = .error (.blobNotFound blob) := by
  unfold value
  simp only [absent]

theorem value_blob {contents : Contents} {blob : String} {length : UInt64} {value : Value}
    (read : contents.value (.blob blob length) = .ok value) :
    ∃ bytes, contents.blobs blob = some bytes ∧ value = .binary bytes := by
  cases there : contents.blobs blob with
  | none =>
      rw [value_of_absent there] at read
      cases read
  | some bytes =>
      rw [value_of_held there] at read
      cases read
      exact ⟨bytes, rfl, rfl⟩

/-- The property that the entry stands for. -/
def stateOf (contents : Contents) (stored : StoredProperty) : Except StorageError Property := do
  let values ← stored.values.mapM contents.value
  return ⟨stored.id, stored.type, stored.multiple, values, .existing, stored.modCount⟩

theorem values_cons {contents : Contents} {head : StoredValue} {tail : List StoredValue}
    {values : List Value} (read : (head :: tail).mapM contents.value = .ok values) :
    ∃ value rest, contents.value head = .ok value ∧ tail.mapM contents.value = .ok rest ∧
      values = value :: rest := by
  rw [List.mapM_cons] at read
  cases first : contents.value head with
  | error error =>
      rw [first] at read
      cases read
  | ok value =>
      cases others : tail.mapM contents.value with
      | error error =>
          rw [first, others] at read
          cases read
      | ok rest =>
          rw [first, others] at read
          cases read
          exact ⟨value, rest, rfl, rfl, rfl⟩

theorem stateOf_ok {contents : Contents} {stored : StoredProperty} {state : Property}
    (read : contents.stateOf stored = .ok state) :
    ∃ values, stored.values.mapM contents.value = .ok values ∧
      state = ⟨stored.id, stored.type, stored.multiple, values, .existing, stored.modCount⟩ := by
  unfold stateOf at read
  cases values : stored.values.mapM contents.value with
  | error error =>
      rw [values] at read
      cases read
  | ok list =>
      rw [values] at read
      cases read
      exact ⟨list, rfl, rfl⟩

def node (contents : Contents) (id : NodeId) : Except RepositoryError Node :=
  match contents.bundles id with
  | some bundle => .ok bundle.toNode
  | none => .error (.notFound (.node id))

/-- Stored properties come first; identity properties follow from the record. -/
def property (contents : Contents) (id : PropertyId) : Except RepositoryError Property :=
  match entryOf contents.bundles id with
  | some stored => (contents.stateOf stored).mapError RepositoryError.storage
  | none =>
      match (contents.bundles id.node).bind (fun bundle => bundle.identityState? id.name) with
      | some state => .ok state
      | none => .error (.notFound (.property id))

def referencesTo (contents : Contents) (target : NodeId) : Except RepositoryError References :=
  match contents.references target with
  | some references => .ok references
  | none => .error (.notFound (.node target))

end Contents

/-- However the task is answered when no call fails, this is its result. -/
abbrev Task.Answers {ε α : Type} (task : Task ε α) (contents : Contents)
    (result : Except ε α) : Prop :=
  task.Meets (writing Faults.none)
    (fun value next => next = ⟨.free, contents⟩ ∧ result = .ok value)
    (fun error next => next = ⟨.free, contents⟩ ∧ result = .error error) ⟨.free, contents⟩

namespace Task.Answers

variable {ε ε' α β : Type} {contents : Contents}

theorem pure (value : α) : (pure value : Task ε α).Answers contents (.ok value) := ⟨rfl, rfl⟩

theorem bind {task : Task ε α} {next : α → Task ε β} {result : Except ε α}
    {rest : α → Except ε β} (first : task.Answers contents result)
    (later : ∀ value, (next value).Answers contents (rest value)) :
    (task >>= next).Answers contents (result >>= rest) := by
  rw [Answers, Task.meets_bind]
  apply first.mono writing_monotone
  · intro value after met
    obtain ⟨rfl, rfl⟩ := met
    exact later value
  · intro error after met
    obtain ⟨rfl, rfl⟩ := met
    exact ⟨rfl, rfl⟩

theorem mapError {task : Task ε α} {result : Except ε α} (change : ε → ε')
    (answers : task.Answers contents result) :
    (task.mapError change).Answers contents (result.mapError change) := by
  rw [Answers, Task.meets_mapError]
  apply answers.mono writing_monotone
  · intro value after met
    obtain ⟨rfl, rfl⟩ := met
    exact ⟨rfl, rfl⟩
  · intro error after met
    obtain ⟨rfl, rfl⟩ := met
    exact ⟨rfl, rfl⟩

theorem mapM {task : α → Task ε β} {result : α → Except ε β}
    (each : ∀ element, (task element).Answers contents (result element)) (list : List α) :
    (list.mapM task).Answers contents (list.mapM result) := by
  induction list with
  | nil => exact ⟨rfl, rfl⟩
  | cons element rest ih =>
      rw [List.mapM_cons, List.mapM_cons]
      exact (each element).bind (fun _value => ih.bind (fun _values => pure _))

end Task.Answers

variable {contents : Contents}

theorem getBlob_answers (blob : String) (length : UInt64) :
    (StoredProperty.fetchValue (.blob blob length)).Answers contents
      (contents.value (.blob blob length)) := by
  rw [StoredProperty.fetchValue, Task.Answers, Task.meets_bind]
  refine writing_call trivial (fun bytes after does => ?_) (fun error after fault fails => ?_)
  · obtain ⟨rfl, held⟩ := does
    constructor
    · rfl
    · rw [Contents.value_of_held held]
  · obtain ⟨absent, rfl⟩ := fault
    constructor
    · rcases fails with rfl | ⟨_unchecked, _bytes, rfl, _held⟩
      · rfl
      · rfl
    · rw [Contents.value_of_absent absent]

theorem fetchValue_answers (stored : StoredValue) :
    (StoredProperty.fetchValue stored).Answers contents (contents.value stored) := by
  cases stored with
  | inline value => exact ⟨rfl, rfl⟩
  | blob blob length => exact getBlob_answers blob length

theorem toProperty_answers (contents : Contents) (stored : StoredProperty) :
    stored.toProperty.Answers contents (contents.stateOf stored) :=
  (Task.Answers.mapM fetchValue_answers stored.values).bind (fun _values => Task.Answers.pure _)

namespace Repository

theorem fetch_answers {α : Type} (id : NodeId) {next : Option Bundle → Task RepositoryError α}
    {result : Except RepositoryError α}
    (absent : contents.bundles id = none → (next none).Answers contents result)
    (present : ∀ bundle : Bundle, bundle.Ready → contents.bundles id = some bundle.record →
      (next (some bundle)).Answers contents result) :
    (fetch id >>= next).Answers contents result := by
  rw [Task.Answers, Task.meets_bind]
  apply (fetch_writing id).mono writing_monotone
  · intro found after met
    obtain ⟨rfl, fetched⟩ := met
    cases found with
    | none => exact absent fetched.record.symm
    | some bundle => exact present bundle (fetched.ready bundle rfl) fetched.record.symm
  · intro error after met
    obtain ⟨_same, _cause, _storage, impossible⟩ := met
    exact impossible.elim

theorem loadNode_answers (id : NodeId) : (loadNode id).Answers contents (contents.node id) := by
  rw [loadNode, fetchNode, bind_assoc]
  unfold Contents.node
  apply fetch_answers
  · intro absent
    rw [absent]
    exact ⟨rfl, rfl⟩
  · intro bundle _ready held
    rw [held]
    exact ⟨rfl, rfl⟩

theorem compute_answers (id : PropertyId) (bundle : Bundle) :
    (do
      let (state, computed) ← required (.property id) (bundle.computeProperty id.name)
      Task.cache (.keepComputed id.node bundle computed)
      return state : Task RepositoryError Property).Answers contents
      (match bundle.identityState? id.name with
        | some state => .ok state
        | none => .error (.notFound (.property id))) := by
  cases gives : bundle.computeProperty id.name with
  | none =>
      rw [Option.map_eq_none_iff.mp gives]
      exact ⟨rfl, rfl⟩
  | some given =>
      obtain ⟨state, computed⟩ := given
      obtain ⟨_state, identity, same⟩ := Option.map_eq_some_iff.mp gives
      cases same
      rw [identity]
      have reads : Reads (Task.cache (.keepComputed id.node bundle _) : Task RepositoryError Unit) :=
        Reads.keepComputed gives
      change Task.Answers (Task.cache (.keepComputed id.node bundle _) >>= fun _ => pure state) _ _
      rw [Task.Answers, Task.meets_bind]
      refine writing_cache reads.1 ?_
      intro _unit after same
      subst same
      exact ⟨rfl, rfl⟩

/-- What is left to do when the bundle of the node has been fetched. -/
def propertyOf (id : PropertyId) (found : Option Bundle) : Task RepositoryError Property := do
  let bundle ← required (.property id) found
  match ← (bundle.property? id.name).mapError RepositoryError.storage with
  | some state => return state
  | none =>
      let (state, computed) ← required (.property id) (bundle.computeProperty id.name)
      Task.cache (.keepComputed id.node bundle computed)
      return state

theorem loadProperty_eq (id : PropertyId) :
    loadProperty id = fetch id.node >>= propertyOf id := rfl

/-- The computed states that the cache keeps are what the record gives. -/
theorem propertyOf_answers (id : PropertyId) {bundle : Bundle} (ready : bundle.Ready)
    (held : contents.bundles id.node = some bundle.record) :
    (propertyOf id (some bundle)).Answers contents (contents.property id) := by
  unfold Contents.property
  rw [entryOf_of_some held, held]
  change Task.Answers ((bundle.property? id.name).mapError RepositoryError.storage >>= _) _ _
  rw [show bundle.record.properties = bundle.properties from rfl]
  unfold Bundle.property?
  cases found : bundle.properties.find? id.name with
  | some stored =>
      have loads := ((toProperty_answers contents stored).bind
        (fun state => Task.Answers.pure (some state))).mapError RepositoryError.storage
      change Task.Answers _ _ ((contents.stateOf stored).mapError RepositoryError.storage)
      rw [Task.Answers, Task.meets_bind]
      apply loads.mono writing_monotone
      · intro value after met
        obtain ⟨rfl, given⟩ := met
        cases stands : contents.stateOf stored with
        | error cause =>
            rw [stands] at given
            cases given
        | ok state =>
            rw [stands] at given
            cases given
            exact ⟨rfl, rfl⟩
      · intro error after met
        obtain ⟨rfl, given⟩ := met
        cases stands : contents.stateOf stored with
        | error cause =>
            rw [stands] at given
            cases given
            exact ⟨rfl, rfl⟩
        | ok state =>
            rw [stands] at given
            cases given
  | none =>
      have known := ready.computed id.name
      change Task.Answers _ _ (match bundle.identityState? id.name with
        | some state => .ok state
        | none => .error (RepositoryError.notFound (.property id)))
      cases kept : bundle.computed.find? id.name with
      | some state =>
          rw [known state kept]
          exact ⟨rfl, rfl⟩
      | none => exact compute_answers id bundle

theorem loadProperty_answers (id : PropertyId) :
    (loadProperty id).Answers contents (contents.property id) := by
  rw [loadProperty_eq]
  apply fetch_answers
  · intro absent
    unfold Contents.property
    rw [entryOf_of_none absent, absent]
    exact ⟨rfl, rfl⟩
  · intro bundle ready held
    exact propertyOf_answers id ready held

theorem loadReferences_answers (target : NodeId) :
    (loadReferences target).Answers contents (contents.referencesTo target) := by
  rw [loadReferences, Task.Answers, Task.meets_bind]
  unfold Contents.referencesTo
  refine repositoryCall_writing trivial (fun found after does => ?_)
    (fun error after fault fails => fault.elim)
  obtain ⟨rfl, rfl⟩ := does
  cases after.references target with
  | none => exact ⟨rfl, rfl⟩
  | some references => exact ⟨rfl, rfl⟩

theorem existsNode_answers (id : NodeId) :
    (existsNode id).Answers contents (.ok (contents.bundles id).isSome) := by
  rw [existsNode]
  apply fetch_answers
  · intro absent
    rw [absent]
    exact ⟨rfl, rfl⟩
  · intro bundle _ready held
    rw [held]
    exact ⟨rfl, rfl⟩

theorem existsProperty_answers (id : PropertyId) :
    (existsProperty id).Answers contents
      (.ok ((contents.bundles id.node).any (·.hasProperty id.name))) := by
  rw [existsProperty]
  apply fetch_answers
  · intro absent
    rw [absent]
    exact ⟨rfl, rfl⟩
  · intro bundle _ready held
    rw [held]
    exact ⟨rfl, rfl⟩

theorem existsReferences_answers (target : NodeId) :
    (existsReferences target).Answers contents (.ok (contents.references target).isSome) := by
  rw [existsReferences, Task.Answers, Task.meets_bind]
  refine repositoryCall_writing trivial (fun found after does => ?_)
    (fun error after fault fails => fault.elim)
  obtain ⟨rfl, rfl⟩ := does
  exact ⟨rfl, rfl⟩

end Repository

end BundleStore
