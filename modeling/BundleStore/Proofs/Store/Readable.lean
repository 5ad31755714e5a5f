import BundleStore.Proofs.Storage.Files
import BundleStore.Proofs.Store.Reading

set_option autoImplicit false

/-! A property that is there can be read whatever else fails: all that its reading asks of storage is
a record that is there and blobs that are there. -/

namespace BundleStore

/-- What is there being readable, this is what the task gives. -/
abbrev Task.Yields {ε α : Type} (task : Task ε α) (contents : Contents) (value : α) : Prop :=
  task.Meets (writing Faults.readable)
    (fun given next => next = ⟨.free, contents⟩ ∧ given = value) (fun _ _ => False) ⟨.free, contents⟩

namespace Task.Yields

variable {ε ε' α β : Type} {contents : Contents}

theorem pure (value : α) : (pure value : Task ε α).Yields contents value := ⟨rfl, rfl⟩

theorem bind {task : Task ε α} {next : α → Task ε β} {value : α} {result : β}
    (first : task.Yields contents value) (later : (next value).Yields contents result) :
    (task >>= next).Yields contents result := by
  rw [Yields, Task.meets_bind]
  apply first.mono writing_monotone
  · intro given after met
    obtain ⟨rfl, rfl⟩ := met
    exact later
  · intro error after impossible
    exact impossible.elim

theorem mapError {task : Task ε α} {value : α} (change : ε → ε')
    (yields : task.Yields contents value) : (task.mapError change).Yields contents value := by
  rw [Yields, Task.meets_mapError]
  exact yields

end Task.Yields

variable {contents : Contents}

theorem fetchValue_yields {stored : StoredValue} {value : Value}
    (read : contents.value stored = .ok value) :
    (StoredProperty.fetchValue stored).Yields contents value := by
  cases stored with
  | inline kept =>
      cases read
      exact ⟨rfl, rfl⟩
  | blob blob length =>
      obtain ⟨bytes, there, rfl⟩ := Contents.value_blob read
      rw [StoredProperty.fetchValue, Task.Yields, Task.meets_bind]
      refine writing_call trivial (fun found after does => ?_) (fun error after fault fails => ?_)
      · obtain ⟨rfl, held⟩ := does
        exact ⟨rfl, congrArg Value.binary (Option.some.inj (held.symm.trans there))⟩
      · rw [Faults.readable, there] at fault
        cases fault

theorem fetchValues_yields {list : List StoredValue} {values : List Value}
    (read : list.mapM contents.value = .ok values) :
    (list.mapM StoredProperty.fetchValue).Yields contents values := by
  induction list generalizing values with
  | nil =>
      cases read
      exact Task.Yields.pure []
  | cons head tail ih =>
      obtain ⟨value, rest, first, others, rfl⟩ := Contents.values_cons read
      rw [List.mapM_cons]
      exact (fetchValue_yields first).bind ((ih others).bind (Task.Yields.pure _))

theorem toProperty_yields {stored : StoredProperty} {state : Property}
    (read : contents.stateOf stored = .ok state) : stored.toProperty.Yields contents state := by
  obtain ⟨values, fetched, rfl⟩ := Contents.stateOf_ok read
  exact (fetchValues_yields fetched).bind (Task.Yields.pure _)

namespace Repository

theorem loadProperty_yields {id : PropertyId} {stored : StoredProperty} {state : Property}
    (found : entryOf contents.bundles id = some stored)
    (read : contents.stateOf stored = .ok state) : (loadProperty id).Yields contents state := by
  rw [loadProperty_eq, Task.Yields, Task.meets_bind]
  apply (fetch_writing id.node).mono writing_monotone
  · intro fetched after met
    obtain ⟨rfl, same, _ready⟩ := met
    cases fetched with
    | none => exact (held_of_entry found same.symm).elim
    | some bundle =>
        rw [entryOf_of_some same.symm] at found
        change bundle.properties.find? id.name = some stored at found
        change Task.Yields ((bundle.property? id.name).mapError RepositoryError.storage >>= _) _ _
        rw [Bundle.property?, found]
        exact (((toProperty_yields read).bind (Task.Yields.pure (some state))).mapError _).bind
          (Task.Yields.pure state)
  · intro error after met
    obtain ⟨_same, cause, rfl, absent⟩ := met
    exact held_of_entry found absent

end Repository

end BundleStore
