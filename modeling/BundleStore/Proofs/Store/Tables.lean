import BundleStore.Proofs.Record.Formats
import BundleStore.Proofs.Store.Meaning
import BundleStore.Proofs.Store.Remains

set_option autoImplicit false

/-! The identity properties that a bundle has computed are those that its header gives, whatever is
done with the bundle and whatever a storage answers meanwhile: what changes the header forgets them,
and what is read from a record has computed none. -/

namespace BundleStore

/-! ### Whatever is answered -/

namespace Task

variable {ε α β : Type}

theorem meets_anything (task : Task ε α) :
    task.Meets anything (fun _ _ => True) (fun _ _ => True) () := by
  induction task with
  | done value => trivial
  | fail error => trivial
  | act action rest ih => exact fun result => ih result

end Task

theorem StoredProperty.release_anything {ε : Type} (stored : StoredProperty) :
    (stored.release : Task ε Unit).Meets anything (fun _ _ => True) (fun _ _ => False) () := by
  have each (blob : String) : (releaseBlob stored.id blob : Task ε Unit).Meets anything
      (fun _ _ => True) (fun _ _ => False) () := by
    intro answer
    cases answer with
    | ok there => exact trivial
    | error error => exact fun _unit => trivial
  exact Task.keeps_forM anything_monotone (fun blob _member _ _ => each blob) trivial

/-! ### Records -/

namespace Record

theorem Codec.read_refine {α β : Type} {codec : Codec α} {write : β → α} {read : α → Option β}
    {input rest : List UInt8} {value : β}
    (found : (codec.refine write read).read input = some (value, rest)) :
    ∃ raw, codec.read input = some (raw, rest) ∧ read raw = some value := by
  obtain ⟨⟨raw, left⟩, first, found⟩ := Option.bind_eq_some_iff.mp found
  obtain ⟨given, made, found⟩ := Option.bind_eq_some_iff.mp found
  cases found
  exact ⟨raw, first, made⟩

/-- A bundle that has been read is as it was recorded. -/
theorem decode_recorded {bytes : List UInt8} {what : String} {found : Bundle}
    (decoded : decode bundle bytes what = .ok found) : found.record = found := by
  rw [decode] at decoded
  cases unframed : unframe bytes with
  | error fault =>
      rw [unframed] at decoded
      cases decoded
  | ok payload =>
      rw [unframed] at decoded
      change (readPayload bundle payload).mapError _ = _ at decoded
      rw [readPayload] at decoded
      cases read : bundle.read payload with
      | none =>
          rw [read] at decoded
          cases decoded
      | some given =>
          obtain ⟨value, rest⟩ := given
          rw [read] at decoded
          obtain ⟨_raw, _first, made⟩ := Codec.read_refine read
          cases decoded
          cases made
          rfl

end Record

/-! ### What is done with a bundle -/

namespace Bundle

theorem ofNode_computed (node : Node) : (ofNode node).Computed :=
  fun _name _state found => by cases found

namespace Computed

variable {bundle changed : Bundle}

/-- What is computed stays right while the node and its types stay. -/
theorem congr (computed : bundle.Computed) (id : changed.id = bundle.id)
    (nodeType : changed.nodeType = bundle.nodeType) (mixins : changed.mixins = bundle.mixins)
    (same : changed.computed = bundle.computed) : changed.Computed := by
  intro name state found
  rw [same] at found
  rw [identityState?_of_types id nodeType mixins]
  exact computed name state found

theorem compute (computed : bundle.Computed) {name : Name} {given : Property × Bundle}
    (computes : bundle.computeProperty name = some given) : given.2.Computed := by
  obtain ⟨state, identity, rfl⟩ := Option.map_eq_some_iff.mp computes
  intro other found held
  by_cases same : other = name
  · rw [same, SortedMap.find?_insert_self] at held
    cases held
    exact same ▸ identity
  · rw [SortedMap.find?_insert_of_ne _ same] at held
    exact computed other found held

end Computed

variable {ε : Type}

theorem removeProperty_anything (bundle : Bundle) (name : Name) :
    (bundle.removeProperty name : Task ε _).Meets anything
      (fun removed _ => ∃ properties, removed.2 = { bundle with properties })
      (fun _ _ => False) () := by
  rw [removeProperty]
  cases bundle.properties.find? name with
  | none => exact ⟨_, rfl⟩
  | some stored =>
      rw [Task.meets_bind]
      exact stored.release_anything.mono anything_monotone (fun _unit _ _ => ⟨_, rfl⟩)
        (fun _error _ never => never)

theorem addProperty_anything (bundle : Bundle) (state : Property) (threshold : Nat) :
    (bundle.addProperty state threshold : Task ε _).Meets anything
      (fun added _ => ∃ properties, added.2 = { bundle with properties })
      (fun _ _ => False) () := by
  rw [addProperty]
  split
  · exact ⟨_, rfl⟩
  · rw [Task.meets_bind]
    refine (bundle.removeProperty_anything state.id.name).mono anything_monotone ?_
      (fun _error _ never => never)
    rintro ⟨_old, cleared⟩ _ ⟨properties, rfl⟩
    rw [Task.meets_orElse]
    change Task.Meets _ _ _ (StoredProperty.ofProperty state threshold >>= _) _
    rw [Task.meets_bind]
    exact (Task.meets_anything _).mono anything_monotone (fun _stored _ _ => ⟨_, rfl⟩)
      (fun _error _ _ => ⟨_, rfl⟩)

/-- What is done with a bundle, be it new or read from a record. -/
inductive Use where
  | update (node : Node)
  | addProperty (state : Property) (threshold : Nat)
  | removeProperty (name : Name)
  | removeAllProperties
  | dropChildren (id : NodeId)
  | markOld
  | compute (name : Name)
  | copy
  /-- The bundle is written as a record, and read again. -/
  | reread (what : String)

/-- A property that cannot be stored and a record that cannot be written or read are passed over. -/
def Use.task : Use → Bundle → Task StorageError Bundle
  | .update node, bundle => return bundle.update node
  | .addProperty state threshold, bundle => do
      let (_, bundle) ← bundle.addProperty state threshold
      return bundle
  | .removeProperty name, bundle => do
      let (_, bundle) ← bundle.removeProperty name
      return bundle
  | .removeAllProperties, bundle => bundle.removeAllProperties
  | .dropChildren id, bundle => return (bundle.dropChildren id).2
  | .markOld, bundle => return bundle.markOld
  | .compute name, bundle => return ((bundle.computeProperty name).map Prod.snd).getD bundle
  | .copy, bundle => return bundle
  | .reread what, bundle =>
      return ((Record.encode Record.bundle bundle).bind
        (Record.decode Record.bundle · what)).toOption.getD bundle

/-- One use after another. -/
def useAll (uses : List Use) (bundle : Bundle) : Task StorageError Bundle :=
  uses.foldlM (fun bundle use => use.task bundle) bundle

theorem Use.keeps_computed (use : Use) {bundle : Bundle} (computed : bundle.Computed) :
    (use.task bundle).Meets anything (fun after _ => after.Computed) (fun _ _ => False) () := by
  cases use with
  | update node => exact fun _name _state found => by cases found
  | addProperty state threshold =>
      change Task.Meets _ _ _ (bundle.addProperty state threshold >>= _) _
      rw [Task.meets_bind]
      refine (bundle.addProperty_anything state threshold).mono anything_monotone ?_
        (fun _error _ never => never)
      rintro ⟨_result, after⟩ _ ⟨properties, rfl⟩
      exact computed.congr rfl rfl rfl rfl
  | removeProperty name =>
      change Task.Meets _ _ _ (bundle.removeProperty name >>= _) _
      rw [Task.meets_bind]
      refine (bundle.removeProperty_anything name).mono anything_monotone ?_
        (fun _error _ never => never)
      rintro ⟨_old, after⟩ _ ⟨properties, rfl⟩
      exact computed.congr rfl rfl rfl rfl
  | removeAllProperties =>
      change Task.Meets _ _ _ (bundle.properties.values.forM StoredProperty.release >>= _) _
      rw [Task.meets_bind]
      refine (Task.keeps_forM anything_monotone
        (fun stored _member _ _ => stored.release_anything) trivial).mono anything_monotone ?_
        (fun _error _ never => never)
      exact fun _unit _ _ _name _state found => by cases found
  | dropChildren id => exact computed.congr rfl rfl rfl rfl
  | markOld => exact computed.congr rfl rfl rfl rfl
  | compute name =>
      change Bundle.Computed _
      cases computes : bundle.computeProperty name with
      | none => exact computed
      | some given => exact computed.compute computes
  | copy => exact computed
  | reread what =>
      change Bundle.Computed _
      cases encoded : Record.encode Record.bundle bundle with
      | error cause => exact computed
      | ok bytes =>
          change Bundle.Computed ((Record.decode Record.bundle bytes what).toOption.getD bundle)
          cases decoded : Record.decode Record.bundle bytes what with
          | error cause => exact computed
          | ok found => exact (ready_of_record (Record.decode_recorded decoded)).computed

theorem useAll_keeps_computed (uses : List Use) {bundle : Bundle} (computed : bundle.Computed) :
    (useAll uses bundle).Meets anything (fun after _ => after.Computed) (fun _ _ => False) () := by
  induction uses generalizing bundle with
  | nil => exact computed
  | cons use rest ih =>
      rw [useAll, List.foldlM_cons, Task.meets_bind]
      exact (use.keeps_computed computed).mono anything_monotone (fun _after _ next => ih next)
        (fun _error _ never => never)

/-- Whatever is done with a bundle comes to an end, and what is computed then is what would be
computed now. -/
theorem computed_after {start : Bundle} (computed : start.Computed) {σ : Type}
    (serve : Task.Serve σ) (state : σ) (uses : List Use) :
    ∃ last after, (useAll uses start).run serve state = (.ok last, after) ∧ last.Computed := by
  have outcome := (useAll_keeps_computed uses computed).run_anything serve state
  cases ran : (useAll uses start).run serve state with
  | mk result after =>
      rw [ran] at outcome
      cases result with
      | ok last => exact ⟨last, after, rfl, outcome⟩
      | error error => exact outcome.elim

end Bundle

end BundleStore
