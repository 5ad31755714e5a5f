import BundleStore.Proofs.Store.Applying

set_option autoImplicit false

/-! What a repository is asked to do. Any number of requests may be on their way at a time, with one
write among them; each keeps to the order of actions that its kind is held to. -/

namespace BundleStore

/-- What may be asked for at any time. -/
inductive Request where
  | loadNode (id : NodeId)
  | existsNode (id : NodeId)
  | loadProperty (id : PropertyId)
  | existsProperty (id : PropertyId)
  | loadReferences (target : NodeId)
  | existsReferences (target : NodeId)
  | evict (id : NodeId)
  | close

/-- What waits for other writes to end. -/
inductive Write where
  | store (log : ChangeLog)
  | externalUpdate (log : ChangeLog)
  | check (ids : List NodeId) (recursive repair : Bool)

/-- The task, whatever it gives back. -/
def Task.forget {ε α : Type} (task : Task ε α) : Task ε Unit := do
  let _ ← task
  return ()

def Request.task : Request → Task RepositoryError Unit
  | .loadNode id => (Repository.loadNode id).forget
  | .existsNode id => (Repository.existsNode id).forget
  | .loadProperty id => (Repository.loadProperty id).forget
  | .existsProperty id => (Repository.existsProperty id).forget
  | .loadReferences target => (Repository.loadReferences target).forget
  | .existsReferences target => (Repository.existsReferences target).forget
  | .evict id => Repository.evict id
  | .close => Repository.close

def Write.task (threshold : Nat) : Write → Task RepositoryError Unit
  | .store log => Repository.store threshold log
  | .externalUpdate log => Repository.externalUpdate log
  | .check ids recursive repair => (Repository.check ids recursive repair).forget

/-- A reader that is free keeps to the order, and is free when it ends. -/
abbrev Reads {ε α : Type} (task : Task ε α) : Prop :=
  task.Meets reading (fun _ stage => stage = .free) (fun _ _ => True) .free

namespace Reads

variable {ε ε' α β : Type}

theorem bind {task : Task ε α} {next : α → Task ε β} (first : Reads task)
    (rest : ∀ value, Reads (next value)) : Reads (task >>= next) := by
  rw [Reads, Task.meets_bind]
  refine first.mono reading_monotone ?_ (fun _error _stage failed => failed)
  intro value _stage same
  subst same
  exact rest value

theorem mapError {change : ε' → ε} {task : Task ε' α} (reads : Reads task) :
    Reads (task.mapError change) := by
  rw [Reads, Task.meets_mapError]
  exact reads.mono reading_monotone (fun _value _stage ended => ended)
    (fun _error _stage _failed => trivial)

theorem pure (value : α) : Reads (pure value : Task ε α) := rfl

theorem forget {task : Task ε α} (reads : Reads task) : Reads task.forget :=
  reads.bind (fun _value => pure ())

theorem getBlob (blob : String) : Reads (Task.call (.getBlob blob)) := by
  refine Task.meets_call ⟨trivial, fun result => ?_⟩
  cases result with
  | ok bytes => exact rfl
  | error error => exact trivial

theorem references (target : NodeId) : Reads (Repository.call (.loadReferences target)) := by
  refine mapError (Task.meets_call ⟨trivial, fun result => ?_⟩)
  cases result with
  | ok found => exact rfl
  | error error => exact trivial

theorem fetchBundle (id : NodeId) : Reads (fetchBundle id) := by
  rw [Reads, BundleStore.fetchBundle, Task.meets_bind]
  constructor
  · rfl
  · intro found
    cases found with
    | present bundle => exact rfl
    | missing => exact rfl
    | unknown =>
        refine ⟨rfl, fun generation => ⟨⟨generation, rfl⟩, fun result => ?_⟩⟩
        cases result with
        | error error => exact trivial
        | ok found => exact ⟨⟨found, rfl, rfl⟩, fun _kept => rfl⟩

theorem fetchValue (stored : StoredValue) : Reads (StoredProperty.fetchValue stored) := by
  cases stored with
  | inline value => exact rfl
  | blob blob length => exact (getBlob blob).bind (fun _bytes => pure _)

theorem mapM {task : α → Task ε β} (each : ∀ element, Reads (task element)) (list : List α) :
    Reads (list.mapM task) := by
  refine Task.keeps_mapM reading_monotone (fun element _member now free => ?_) rfl
  subst free
  exact each element

theorem property? (bundle : Bundle) (name : Name) : Reads (bundle.property? name) := by
  rw [Bundle.property?]
  cases bundle.properties.find? name with
  | none => exact rfl
  | some stored =>
      have values := Reads.mapM fetchValue stored.values
      exact (values.bind (fun _values => pure _)).bind (fun _state => pure _)

theorem required (item : ItemId) (found : Option α) : Reads (Repository.required item found) := by
  cases found with
  | none => exact trivial
  | some value => exact rfl

theorem fetch (id : NodeId) : Reads (Repository.fetch id) := (fetchBundle id).mapError

/-- A computed state is what the header gives, and is no part of the record. -/
theorem keepComputed {bundle computed : Bundle} {id : NodeId} {name : Name} {state : Property}
    (gives : bundle.computeProperty name = some (state, computed)) :
    Reads (Task.cache (.keepComputed id bundle computed) : Task ε _) := by
  obtain ⟨given, identity, same⟩ := Option.map_eq_some_iff.mp gives
  cases same
  refine ⟨⟨fun ready => ⟨ready.old, fun other held found => ?_⟩, rfl⟩, fun _unit => rfl⟩
  change (bundle.computed.insert name state).find? other = some held at found
  by_cases same : other = name
  · rw [same, SortedMap.find?_insert_self] at found
    rw [same, ← found]
    exact identity
  · rw [SortedMap.find?_insert_of_ne _ same] at found
    exact ready.computed other held found

theorem loadProperty (id : PropertyId) : Reads (Repository.loadProperty id) := by
  refine (fetch id.node).bind (fun found => (required _ found).bind (fun bundle => ?_))
  refine (property? bundle id.name).mapError.bind (fun held => ?_)
  cases held with
  | some state => exact rfl
  | none =>
      cases gives : bundle.computeProperty id.name with
      | none => exact trivial
      | some given => exact (keepComputed gives).bind (fun _unit => rfl)

theorem request (request : Request) : Reads request.task := by
  cases request with
  | loadNode id =>
      have node := (fetch id).bind (fun found => required (.node id) found)
      exact (node.bind (fun bundle => pure bundle.toNode)).forget
  | existsNode id => exact ((fetch id).bind (fun found => pure found.isSome)).forget
  | loadProperty id => exact (loadProperty id).forget
  | existsProperty id =>
      exact ((fetch id.node).bind (fun found => pure (found.any (·.hasProperty id.name)))).forget
  | loadReferences target =>
      exact ((references target).bind (fun found => required (.node target) found)).forget
  | existsReferences target =>
      exact ((references target).bind (fun found => pure found.isSome)).forget
  | evict id => exact ⟨trivial, fun _unit => rfl⟩
  | close => exact ⟨trivial, fun _unit => rfl⟩

end Reads

/-- A writer that is free keeps to the order, and is free when it ends, whether it fails or not;
what holds of the contents when it starts holds when it ends. -/
abbrev Writes {α : Type} (faults : Faults) (holds : Contents → Prop)
    (task : Task RepositoryError α) : Prop :=
  ∀ contents, holds contents → task.Meets (writing faults)
    (fun _ next => next.stage = .free ∧ holds next.contents)
    (fun _error next => next.stage = .free ∧ holds next.contents) ⟨.free, contents⟩

namespace Writes

variable {faults : Faults} {holds : Contents → Prop}

theorem store (threshold : Nat) (log : ChangeLog)
    (applied : ∀ before after, holds before → Applied faults threshold log before after →
      holds after)
    (abandoned : ∀ before after, holds before → Abandoned faults threshold log before after →
      holds after) :
    Writes faults holds (Repository.store threshold log) := by
  intro contents held
  refine (Repository.store_writing _ threshold log).mono writing_monotone ?_ ?_
  · intro _unit next met
    exact ⟨met.1, applied contents next.contents held met.2⟩
  · intro _error next met
    exact ⟨met.1, abandoned contents next.contents held met.2⟩

theorem externalUpdate (log : ChangeLog) :
    Writes faults holds (Repository.externalUpdate log) := by
  intro contents held
  rw [Repository.externalUpdate]
  refine Task.keeps_forM writing_monotone (fun id _member now kept => ?_) ⟨rfl, held⟩
  refine writing_cache trivial (fun _unit after does => ?_)
  obtain rfl := does
  exact kept

theorem check (ids : List NodeId) (recursive repair : Bool)
    (mended : ∀ before after, holds before → Contents.Mended before after → holds after) :
    Writes faults holds (Repository.check ids recursive repair).forget := by
  intro contents held
  have reported (problems : List Problem) (now : Moment) :
      (problems.forM (fun problem =>
        (Task.warn (.inconsistent problem) : Task RepositoryError Unit))).Meets (writing faults)
          (fun _ next => next = now) (fun _ _ => False) now :=
    Task.keeps_forM writing_monotone (fun _problem _member _now same => writing_warn same) rfl
  rw [Task.forget, Task.meets_bind, Repository.check, Task.meets_bind]
  refine Repository.repositoryCall_writing rfl (fun problems after does => ?_)
    (fun error after fault fails => ?_)
  · rw [Task.meets_bind]
    refine (reported problems _).mono writing_monotone ?_ (fun _error _next never => never.elim)
    intro _unit _next same
    subst same
    cases repair with
    | false =>
        obtain rfl := does
        exact ⟨rfl, held⟩
    | true =>
        rw [if_pos rfl, Task.meets_bind]
        refine writing_cache trivial (fun _unit last same => ?_)
        obtain rfl := same
        exact ⟨rfl, mended contents _ held does⟩
  · rcases fails with same | ⟨unchecked, _done⟩
    · obtain rfl := same
      cases repair <;> exact ⟨rfl, held⟩
    · cases unchecked

end Writes

end BundleStore
