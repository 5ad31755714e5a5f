import BundleStore.Proofs.Coherence.Uncached
import BundleStore.Proofs.SortedMap
import BundleStore.Repository.Store

set_option autoImplicit false

/-! Whatever is asked of a repository comes to the same with a cache and without one. The bundles
that a change log stages are the same, but for computed states; these are not written, no task looks
at them but the one that reads an identity property, and that one would compute them anyway. -/

open BundleStore.Task (Alongside)

namespace BundleStore

variable {ε : Type}

/-! ### Properties -/

namespace StoredProperty

theorem fetchValue_alongside (stored : StoredValue) :
    Alongside Eq (fetchValue stored) (fetchValue stored) := by
  cases stored with
  | inline value => exact Alongside.pure rfl
  | blob blob length =>
      exact (Alongside.call (.getBlob blob)).bind (fun same => Alongside.pure (same ▸ rfl))

theorem toProperty_alongside (stored : StoredProperty) :
    Alongside Eq stored.toProperty stored.toProperty :=
  (Alongside.mapM stored.values fetchValue_alongside).bind (fun same => Alongside.pure (same ▸ rfl))

theorem storeValue_alongside (id : PropertyId) (threshold : Nat) (value : Value) (place : Nat) :
    Alongside Eq (storeValue id threshold value place) (storeValue id threshold value place) := by
  cases value with
  | binary bytes =>
      rw [storeValue]
      split
      · refine (Alongside.call (.createBlobId id place)).bind (fun same => ?_)
        subst same
        exact (Alongside.call _).bind (fun _same => Alongside.pure rfl)
      · exact Alongside.pure rfl
  | _ => exact Alongside.pure rfl

theorem storeValues_alongside (id : PropertyId) (threshold : Nat) (values : List Value)
    (place : Nat) :
    Alongside Eq (storeValues id threshold values place) (storeValues id threshold values place) := by
  induction values generalizing place with
  | nil => exact Alongside.pure rfl
  | cons value rest ih =>
      refine (storeValue_alongside id threshold value place).bind (fun same => ?_)
      exact (ih (place + 1)).bind (fun others => Alongside.pure (by rw [same, others]))

theorem ofProperty_alongside (state : Property) (threshold : Nat) :
    Alongside Eq (ofProperty state threshold) (ofProperty state threshold) :=
  (storeValues_alongside state.id threshold state.values 0).bind
    (fun same => Alongside.pure (same ▸ rfl))

theorem releaseBlob_alongside (id : PropertyId) (blob : String) :
    Alongside Eq (releaseBlob id blob : Task ε Unit) (releaseBlob id blob) := by
  refine (Alongside.attempt (.removeBlob blob)).bind (fun {result _given} same => ?_)
  subst same
  cases result with
  | ok _there => exact Alongside.pure rfl
  | error _error => exact Alongside.warn _

theorem release_alongside (stored : StoredProperty) :
    Alongside Eq (stored.release : Task ε Unit) stored.release :=
  Alongside.forM_same stored.blobs (releaseBlob_alongside stored.id)

end StoredProperty

namespace Bundle

theorem releaseBlobs_alongside (bundle : Bundle) :
    Alongside Eq (bundle.releaseBlobs : Task ε Unit) bundle.bare.releaseBlobs :=
  Alongside.forM_same bundle.properties.values StoredProperty.release_alongside

/-- What comes with the bundle is the same, and so is the bundle with nothing computed. -/
def Bared {α : Type} (result other : α × Bundle) : Prop := other = (result.1, result.2.bare)

theorem removeProperty_alongside (bundle : Bundle) (name : Name) :
    Alongside Bared (bundle.removeProperty name : Task ε _) (bundle.bare.removeProperty name) := by
  rw [removeProperty, removeProperty, show bundle.bare.properties = bundle.properties from rfl]
  cases bundle.properties.find? name with
  | none => exact Alongside.pure rfl
  | some stored => exact stored.release_alongside.bind (fun _same => Alongside.pure rfl)

theorem addProperty_alongside (bundle : Bundle) (state : Property) (threshold : Nat) :
    Alongside Bared (bundle.addProperty state threshold : Task ε _)
      (bundle.bare.addProperty state threshold) := by
  rw [addProperty, addProperty]
  split
  · exact Alongside.pure rfl
  · refine (bundle.removeProperty_alongside state.id.name).bind (fun {cleared _given} same => ?_)
    obtain rfl := same
    refine Alongside.orElse ?_ (fun error => Alongside.pure rfl)
    exact (StoredProperty.ofProperty_alongside state threshold).bind
      (fun same => Alongside.pure (same ▸ rfl))

end Bundle

namespace Repository

/-! ### Reads -/

theorem call_alongside (call : StorageCall) :
    Alongside Eq (Repository.call call) (Repository.call call) :=
  (Alongside.call call).mapError

theorem fetch_alongside (id : NodeId) :
    Alongside (Option.Rel Bundle.Alike) (fetch id) (fetch id) :=
  (Alongside.fetchBundle id).mapError

theorem required_alongside {α β : Type} {alike : α → β → Prop} (item : ItemId)
    {found : Option α} {other : Option β} (same : Option.Rel alike found other) :
    Alongside alike (required item found) (required item other) := by
  cases same with
  | none => exact Alongside.fail _
  | some same => exact Alongside.pure same

theorem fetchNode_alongside (id : NodeId) :
    Alongside Bundle.Alike (fetchNode id) (fetchNode id) :=
  (fetch_alongside id).bind (required_alongside (.node id))

theorem loadNode_alongside (id : NodeId) : Alongside Eq (loadNode id) (loadNode id) :=
  (fetchNode_alongside id).bind (fun alike => Alongside.pure (by rw [alike.bare]; rfl))

theorem existsNode_alongside (id : NodeId) : Alongside Eq (existsNode id) (existsNode id) :=
  (fetch_alongside id).bind (fun alike => Alongside.pure (by cases alike <;> rfl))

theorem existsProperty_alongside (id : PropertyId) :
    Alongside Eq (existsProperty id) (existsProperty id) := by
  refine (fetch_alongside id.node).bind (fun alike => Alongside.pure ?_)
  cases alike with
  | none => rfl
  | some alike =>
      rw [alike.bare]
      rfl

/-- What is left to do when the property is not stored and has not been computed. -/
def computeFor (id : PropertyId) (bundle : Bundle) : Task RepositoryError Property := do
  let (state, computed) ← required (.property id) (bundle.computeProperty id.name)
  Task.cache (.keepComputed id.node bundle computed)
  return state

theorem computeFor_alongside (id : PropertyId) (bundle : Bundle) :
    Alongside Eq (computeFor id bundle) (computeFor id bundle.bare) := by
  rw [computeFor, computeFor, Bundle.computeProperty, Bundle.computeProperty,
    show bundle.bare.identityState? id.name = bundle.identityState? id.name from rfl]
  cases bundle.identityState? id.name with
  | none => exact Alongside.fail _
  | some state => exact (Alongside.cache _ _).bind (fun _any => Alongside.pure rfl)

/-- A state that has been computed before is the one that is computed now. -/
theorem computed_alongside (id : PropertyId) {bundle : Bundle} (computed : bundle.Computed)
    {state : Property} (kept : bundle.computed.find? id.name = some state) :
    Alongside Eq (pure state : Task RepositoryError Property) (computeFor id bundle.bare) := by
  have identity : bundle.bare.identityState? id.name = some state := computed id.name state kept
  rw [computeFor, Bundle.computeProperty, identity]
  exact Alongside.unheld (Alongside.pure rfl)

theorem propertyOf_alongside (id : PropertyId) {bundle other : Bundle} (alike : bundle.Alike other) :
    Alongside Eq (propertyOf id (some bundle)) (propertyOf id (some other)) := by
  obtain ⟨rfl, computed⟩ := alike
  change Alongside Eq
    ((bundle.property? id.name).mapError RepositoryError.storage >>= _)
    ((bundle.bare.property? id.name).mapError RepositoryError.storage >>= _)
  rw [Bundle.property?, Bundle.property?,
    show bundle.bare.properties = bundle.properties from rfl]
  cases bundle.properties.find? id.name with
  | some stored =>
      have held : Alongside (fun found given => ∃ state, found = some state ∧ given = some state)
          (stored.toProperty >>= fun state => pure (some state))
          (stored.toProperty >>= fun state => pure (some state)) :=
        stored.toProperty_alongside.bind (fun {state _given} same =>
          Alongside.pure ⟨state, rfl, congrArg some same.symm⟩)
      refine held.mapError.bind (fun same => ?_)
      obtain ⟨state, rfl, rfl⟩ := same
      exact Alongside.pure rfl
  | none =>
      cases kept : bundle.computed.find? id.name with
      | some state =>
          change Alongside Eq (pure state) (computeFor id bundle.bare)
          exact computed_alongside id computed kept
      | none =>
          change Alongside Eq (computeFor id bundle) (computeFor id bundle.bare)
          exact computeFor_alongside id bundle

theorem loadProperty_alongside (id : PropertyId) :
    Alongside Eq (loadProperty id) (loadProperty id) := by
  rw [loadProperty_eq]
  refine (fetch_alongside id.node).bind (fun alike => ?_)
  cases alike with
  | none => exact Alongside.fail _
  | some alike => exact propertyOf_alongside id alike

theorem loadReferences_alongside (target : NodeId) :
    Alongside Eq (loadReferences target) (loadReferences target) := by
  refine (call_alongside (.loadReferences target)).bind (fun {found _given} same => ?_)
  subst same
  cases found with
  | none => exact Alongside.fail _
  | some references => exact Alongside.pure rfl

theorem existsReferences_alongside (target : NodeId) :
    Alongside Eq (existsReferences target) (existsReferences target) :=
  (call_alongside (.loadReferences target)).bind (fun same => Alongside.pure (same ▸ rfl))

/-! ### Staging -/

def Staged.bare (staged : Staged) : Staged := staged.mapValues Bundle.bare

theorem bare_insert (staged : Staged) (id : NodeId) (bundle : Bundle) :
    Staged.bare (staged.insert id bundle) = SortedMap.insert staged.bare id bundle.bare :=
  SortedMap.mapValues_insert Bundle.bare staged id bundle

/-- What is staged is the same with nothing computed. -/
def Staged.Alike (staged other : Staged) : Prop := other = staged.bare

theorem stageAdded_bare (nodes : List Node) : Staged.bare (stageAdded nodes) = stageAdded nodes := by
  have kept (staged : Staged) (bare : staged.bare = staged) :
      Staged.bare (nodes.foldl (fun staged node => staged.insert node.id (Bundle.ofNode node)) staged)
        = nodes.foldl (fun staged node => staged.insert node.id (Bundle.ofNode node)) staged := by
    induction nodes generalizing staged with
    | nil => exact bare
    | cons node rest ih =>
        apply ih
        rw [bare_insert, bare]
        rfl
  exact kept SortedMap.empty rfl

theorem stagedBundle_alongside (staged : Staged) (id : NodeId) :
    Alongside (fun bundle other => other = bundle.bare) (stagedBundle staged id)
      (stagedBundle staged.bare id) := by
  rw [stagedBundle, stagedBundle, Staged.bare, SortedMap.find?_mapValues]
  cases staged.find? id with
  | some bundle => exact Alongside.pure rfl
  | none => exact (fetchNode_alongside id).mono (fun alike => alike.bare)

theorem updateNode_alongside (node : Node) {staged other : Staged} (alike : staged.Alike other) :
    Alongside Staged.Alike (updateNode staged node) (updateNode other node) := by
  obtain rfl := alike
  refine (stagedBundle_alongside staged node.id).bind (fun {bundle _other} same => ?_)
  obtain rfl := same
  exact Alongside.pure (bare_insert staged node.id (bundle.update node)).symm

theorem putProperty_alongside (threshold : Nat) (state : Property) (staged : Staged) :
    Alongside Staged.Alike (putProperty threshold staged state)
      (putProperty threshold staged.bare state) := by
  refine (stagedBundle_alongside staged state.id.node).bind (fun {bundle _other} same => ?_)
  obtain rfl := same
  refine (bundle.addProperty_alongside state threshold).bind (fun {added _other} same => ?_)
  obtain rfl := same
  obtain ⟨result, added⟩ := added
  cases result with
  | error error => exact Alongside.fail _
  | ok _unit => exact Alongside.pure (bare_insert staged state.id.node added).symm

theorem modifyProperty_alongside (threshold : Nat) (state : Property) {staged other : Staged}
    (alike : staged.Alike other) :
    Alongside Staged.Alike (modifyProperty threshold staged state)
      (modifyProperty threshold other state) := by
  obtain rfl := alike
  rw [modifyProperty, modifyProperty]
  split
  · exact Alongside.pure rfl
  · exact putProperty_alongside threshold state staged

theorem warnUnlessStaged_alongside (staged : Staged) (node : NodeId) (warning : Warning) :
    Alongside Eq (warnUnlessStaged staged node warning)
      (warnUnlessStaged staged.bare node warning) := by
  rw [warnUnlessStaged, warnUnlessStaged, Staged.bare, SortedMap.contains_mapValues]
  split
  · exact Alongside.pure rfl
  · exact Alongside.warn _

theorem dropProperty_alongside (gone : SortedSet NodeId) (state : Property) {staged other : Staged}
    (alike : staged.Alike other) :
    Alongside Staged.Alike (dropProperty gone staged state) (dropProperty gone other state) := by
  obtain rfl := alike
  rw [dropProperty, dropProperty]
  split
  · exact Alongside.pure rfl
  · refine (warnUnlessStaged_alongside staged state.id.node _).bind (fun _same => ?_)
    refine (stagedBundle_alongside staged state.id.node).bind (fun {bundle _other} same => ?_)
    obtain rfl := same
    refine (bundle.removeProperty_alongside state.id.name).bind (fun {removed _other} same => ?_)
    obtain rfl := same
    exact Alongside.pure (bare_insert staged state.id.node removed.2).symm

theorem addProperty_alongside (threshold : Nat) (state : Property) {staged other : Staged}
    (alike : staged.Alike other) :
    Alongside Staged.Alike (addProperty threshold staged state)
      (addProperty threshold other state) := by
  obtain rfl := alike
  rw [addProperty, addProperty]
  split
  · exact Alongside.pure rfl
  · exact (warnUnlessStaged_alongside staged state.id.node _).bind
      (fun _same => putProperty_alongside threshold state staged)

theorem stageChanges_alongside (threshold : Nat) (log : ChangeLog) (gone : SortedSet NodeId) :
    Alongside Staged.Alike (stageChanges threshold log gone) (stageChanges threshold log gone) := by
  have added : Staged.Alike (stageAdded log.addedNodes) (stageAdded log.addedNodes) :=
    (stageAdded_bare log.addedNodes).symm
  refine (Alongside.foldlM log.modifiedNodes updateNode_alongside added).bind (fun updated => ?_)
  refine (Alongside.foldlM log.modifiedProperties (modifyProperty_alongside threshold)
    updated).bind (fun modified => ?_)
  refine (Alongside.foldlM log.deletedProperties (dropProperty_alongside gone) modified).bind
    (fun dropped => ?_)
  exact Alongside.foldlM log.addedProperties (addProperty_alongside threshold) dropped

/-! ### Writes -/

theorem deleteNode_alongside (node : Node) : Alongside Eq (deleteNode node) (deleteNode node) := by
  refine (fetchNode_alongside node.id).bind (fun {bundle _other} alike => ?_)
  obtain rfl := alike.bare
  refine (call_alongside (.destroyBundle bundle.id)).bind (fun _same => ?_)
  refine bundle.releaseBlobs_alongside.bind (fun _same => ?_)
  exact Alongside.forgotten (Alongside.cache (.putMissing node.id) (.putMissing node.id))

theorem deleteNodes_alongside (nodes : List Node) (gone : SortedSet NodeId) :
    Alongside Eq (deleteNodes nodes gone) (deleteNodes nodes gone) := by
  induction nodes generalizing gone with
  | nil => exact Alongside.pure rfl
  | cons node rest ih => exact (deleteNode_alongside node).bind (fun _same => ih _)

theorem warnParent_alongside (gone : SortedSet NodeId) (staged : Staged) (node : Node) :
    Alongside Eq (warnParent gone staged node) (warnParent gone staged.bare node) := by
  rw [warnParent, warnParent]
  cases node.parent with
  | none => exact Alongside.pure rfl
  | some parent =>
      have same : SortedMap.contains staged.bare parent = SortedMap.contains staged parent :=
        SortedMap.contains_mapValues ..
      dsimp only
      rw [same]
      split
      · exact Alongside.pure rfl
      · exact Alongside.warn _

theorem writeBundle_alongside (bundle : Bundle) :
    Alongside Eq (writeBundle bundle) (writeBundle bundle.bare) :=
  (Alongside.storeBundle bundle).mapError.bind
    (fun _same => (Alongside.cache _ _).bind (fun _any => Alongside.pure rfl))

theorem writeReferences_alongside (references : References) :
    Alongside Eq (writeReferences references) (writeReferences references) := by
  rw [writeReferences]
  split
  · exact call_alongside (.destroyReferences references.target)
  · exact call_alongside (.storeReferences references)

theorem apply_alongside (threshold : Nat) (log : ChangeLog) :
    Alongside Eq (apply threshold log) (apply threshold log) := by
  refine (deleteNodes_alongside log.deletedNodes SortedMap.empty).bind (fun {gone _other} same => ?_)
  subst same
  refine (stageChanges_alongside threshold log gone).bind (fun {staged _other} alike => ?_)
  obtain rfl := alike
  have warned : Alongside Eq (log.deletedNodes.forM (warnParent gone staged))
      (log.deletedNodes.forM (warnParent gone staged.bare)) :=
    Alongside.forM (List.forall₂_same.mpr (fun _node _member => rfl))
      (fun same => same ▸ warnParent_alongside gone staged _)
  have paired : List.Forall₂ (fun bundle other => other = bundle.bare) staged.values
      staged.bare.values := by
    rw [Staged.bare, SortedMap.values_mapValues, List.forall₂_map_right_iff]
    exact List.forall₂_same.mpr (fun _bundle _member => rfl)
  refine warned.bind (fun _same => ?_)
  refine (Alongside.forM paired (fun same => same ▸ writeBundle_alongside _)).bind (fun _same => ?_)
  exact Alongside.forM_same log.references writeReferences_alongside

theorem store_alongside (threshold : Nat) (log : ChangeLog) :
    Alongside Eq (store threshold log) (store threshold log) :=
  (apply_alongside threshold log).orElse (fun error =>
    (Alongside.cache _ _).bind (fun _any => (Alongside.warn _).bind
      (fun _same => Alongside.fail error)))

theorem externalUpdate_alongside (log : ChangeLog) :
    Alongside Eq (externalUpdate log) (externalUpdate log) :=
  Alongside.forM_same (touched log) (fun id =>
    Alongside.forgotten (Alongside.cache (.invalidate id) (.invalidate id)))

theorem check_alongside (ids : List NodeId) (recursive repair : Bool) :
    Alongside Eq (check ids recursive repair) (check ids recursive repair) := by
  refine (call_alongside (.checkConsistency ids recursive repair)).bind
    (fun {problems _other} same => ?_)
  subst same
  refine (Alongside.forM_same problems (fun _problem => Alongside.warn _)).bind (fun _same => ?_)
  cases repair with
  | false => exact Alongside.pure rfl
  | true => exact (Alongside.cache _ _).bind (fun _any => Alongside.pure rfl)

end Repository

end BundleStore
