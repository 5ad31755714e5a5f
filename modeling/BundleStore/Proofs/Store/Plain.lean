import BundleStore.Proofs.Coherence.Requests
import BundleStore.Proofs.Storage.Files

set_option autoImplicit false

/-! Which blobs a task asks for. A task invents no blob identifier: those it hands to storage have
been given by storage, or stand in a bundle that it has read. So as long as those are plain, all
that it asks for is. -/

namespace BundleStore

def StoredProperty.Plain (stored : StoredProperty) : Prop :=
  ∀ blob ∈ stored.blobs, FilePath.Plain blob

def Bundle.Plain (bundle : Bundle) : Prop := ∀ stored ∈ bundle.properties.values, stored.Plain

namespace Bundle.Plain

variable {bundle : Bundle} {name : Name} {stored : StoredProperty}

theorem ofNode (node : Node) : (Bundle.ofNode node).Plain := fun _stored member => by cases member

theorem found (plain : bundle.Plain) (found : bundle.properties.find? name = some stored) :
    stored.Plain :=
  plain stored (SortedMap.mem_values.mpr ⟨name, found⟩)

theorem erase (plain : bundle.Plain) (name : Name) :
    Bundle.Plain { bundle with properties := bundle.properties.erase name } := by
  intro stored member
  obtain ⟨other, held⟩ := SortedMap.mem_values.mp member
  by_cases same : other = name
  · rw [same, SortedMap.find?_erase_self] at held
    cases held
  · rw [SortedMap.find?_erase_of_ne _ same] at held
    exact plain.found held

theorem insert (plain : bundle.Plain) (name : Name) (stores : stored.Plain) :
    Bundle.Plain { bundle with properties := bundle.properties.insert name stored } := by
  intro other member
  obtain ⟨key, held⟩ := SortedMap.mem_values.mp member
  by_cases same : key = name
  · rw [same, SortedMap.find?_insert_self] at held
    cases held
    exact stores
  · rw [SortedMap.find?_insert_of_ne _ same] at held
    exact plain.found held

end Bundle.Plain

/-- Blobs that the action names lead to files of their own. -/
def Action.AsksPlain : Action → Prop
  | .storage (.storeBundle bundle) => bundle.Plain
  | .storage call => FileStorage.Clean call
  | _ => True

/-- And so do blobs that its answer names. -/
def Action.GivesPlain : (action : Action) → action.Result → Prop
  | .storage (.loadBundle _), .ok (some bundle) => bundle.Plain
  | .storage (.createBlobId _ _), .ok blob => FilePath.Plain blob
  | .cache (.lookup _), .present bundle => bundle.Plain
  | _, _ => True

def plainly : Rule Unit := fun action stated _ =>
  action.AsksPlain ∧ ∀ result, action.GivesPlain result → stated result ()

theorem plainly_monotone : plainly.Monotone :=
  fun _action _state _stated _needed implied met =>
    ⟨met.1, fun result answers => implied result () (met.2 result answers)⟩

/-- The task asks for plain blobs only, and what it ends with is as stated. -/
abbrev Task.Plainly {ε α : Type} (task : Task ε α) (ends : α → Prop) : Prop :=
  task.Meets plainly (fun value _ => ends value) (fun _ _ => True) ()

namespace Task.Plainly

variable {ε ε' α β γ : Type} {ends : β → Prop} {mid : α → Prop}

theorem bind {task : Task ε α} {next : α → Task ε β} (first : task.Plainly mid)
    (later : ∀ value, mid value → (next value).Plainly ends) : (task >>= next).Plainly ends := by
  rw [Task.Plainly, Task.meets_bind]
  exact first.mono plainly_monotone (fun value _ met => later value met) (fun _ _ _ => trivial)

theorem pure (value : α) : (pure value : Task ε α).Plainly (fun _ => True) := trivial

theorem forget {task : Task ε α} (first : task.Plainly mid) :
    task.forget.Plainly (fun _ => True) :=
  first.bind (fun _value _met => pure ())

theorem mapError {task : Task ε α} (change : ε → ε') (first : task.Plainly mid) :
    (task.mapError change).Plainly mid := by
  rw [Task.Plainly, Task.meets_mapError]
  exact first

theorem orElse {task : Task ε α} {other : ε → Task ε' α}
    (first : task.Plainly mid) (fallback : ∀ error, (other error).Plainly mid) :
    (task.orElse other).Plainly mid := by
  rw [Task.Plainly, Task.meets_orElse]
  exact Task.Meets.mono plainly_monotone first (fun _ _ met => met) (fun error _ _ => fallback error)

theorem call {call : StorageCall} {ends : call.Result → Prop}
    (plain : Action.AsksPlain (.storage call))
    (answers : ∀ value, Action.GivesPlain (.storage call) (.ok value) → ends value) :
    (Task.call call).Plainly ends := by
  refine Task.meets_call ⟨plain, fun result met => ?_⟩
  cases result with
  | ok value => exact answers value met
  | error error => exact trivial

theorem repositoryCall {call : StorageCall} (plain : Action.AsksPlain (.storage call)) :
    (Repository.call call).Plainly (fun _ => True) :=
  mapError _ (Plainly.call plain (fun _value _met => trivial))

theorem foldlM {body : γ → α → Task ε γ} {kept : γ → Prop} {list : List α}
    (each : ∀ value element, kept value → (body value element).Plainly kept) {value : γ}
    (start : kept value) : (list.foldlM body value).Plainly kept := by
  induction list generalizing value with
  | nil => exact start
  | cons element rest ih =>
      rw [List.foldlM_cons]
      exact (each value element start).bind (fun next met => ih met)

theorem forM {body : α → Task ε PUnit} {list : List α}
    (each : ∀ element ∈ list, (body element).Plainly (fun _ => True)) :
    (list.forM body).Plainly (fun _ => True) :=
  keeps_forM plainly_monotone (fun element member _ _ => each element member) trivial

theorem mapM {task : α → Task ε β} {list : List α}
    (each : ∀ element ∈ list, (task element).Plainly (fun _ => True)) :
    (list.mapM task).Plainly (fun _ => True) :=
  keeps_mapM plainly_monotone (fun element member _ _ => each element member) trivial

/-! ### Properties and bundles -/

theorem fetchValue {stored : StoredValue}
    (plain : ∀ blob, stored.blob? = some blob → FilePath.Plain blob) :
    (StoredProperty.fetchValue stored).Plainly (fun _ => True) := by
  cases stored with
  | inline value => trivial
  | blob blob length =>
      have got : (Task.call (.getBlob blob)).Plainly (fun _ => True) :=
        Plainly.call (plain blob rfl) (fun _bytes _met => trivial)
      exact got.bind (fun _bytes _met => trivial)

theorem toProperty {stored : StoredProperty} (plain : stored.Plain) :
    stored.toProperty.Plainly (fun _ => True) := by
  have values : (stored.values.mapM StoredProperty.fetchValue).Plainly (fun _ => True) :=
    mapM (fun value member => fetchValue (fun blob same =>
      plain blob (List.mem_filterMap.mpr ⟨value, member, same⟩)))
  exact values.bind (fun _values _met => trivial)

theorem property? {bundle : Bundle} (plain : bundle.Plain) (name : Name) :
    (bundle.property? name).Plainly (fun _ => True) := by
  rw [Bundle.property?]
  cases found : bundle.properties.find? name with
  | none => trivial
  | some stored => exact (toProperty (plain.found found)).bind (fun _state _met => trivial)

theorem storeValue (id : PropertyId) (threshold : Nat) (value : Value) (place : Nat) :
    (StoredProperty.storeValue id threshold value place).Plainly
      (fun stored => ∀ blob, stored.blob? = some blob → FilePath.Plain blob) := by
  have inline (value : Value) : (Task.done (.inline value) : Task StorageError StoredValue).Plainly
      (fun stored => ∀ blob, stored.blob? = some blob → FilePath.Plain blob) :=
    fun _blob impossible => by cases impossible
  unfold StoredProperty.storeValue
  cases value with
  | binary bytes =>
      dsimp only
      split
      · have given : (Task.call (.createBlobId id place)).Plainly FilePath.Plain :=
          Plainly.call trivial (fun _blob plain => plain)
        apply given.bind
        intro blob plain
        have put : (Task.call (.putBlob blob bytes)).Plainly (fun _ => True) :=
          Plainly.call plain (fun _unit _met => trivial)
        apply put.bind
        intro _unit _met other same
        cases same
        exact plain
      · exact inline _
  | _ => exact inline _

theorem storeValues (id : PropertyId) (threshold : Nat) (values : List Value) (place : Nat) :
    (StoredProperty.storeValues id threshold values place).Plainly
      (fun stored => ∀ blob ∈ stored.filterMap StoredValue.blob?, FilePath.Plain blob) := by
  induction values generalizing place with
  | nil =>
      intro blob member
      cases member
  | cons value rest ih =>
      rw [StoredProperty.storeValues]
      apply (storeValue id threshold value place).bind
      intro first plain
      apply (ih (place + 1)).bind
      intro others later blob member
      obtain ⟨stored, either, same⟩ := List.mem_filterMap.mp member
      rcases List.mem_cons.mp either with rfl | further
      · exact plain blob same
      · exact later blob (List.mem_filterMap.mpr ⟨stored, further, same⟩)

theorem ofProperty (state : Property) (threshold : Nat) :
    (StoredProperty.ofProperty state threshold).Plainly StoredProperty.Plain :=
  (storeValues state.id threshold state.values 0).bind (fun _values plain => plain)

theorem release {stored : StoredProperty} (plain : stored.Plain) :
    (stored.release : Task ε Unit).Plainly (fun _ => True) := by
  apply forM
  intro blob member
  rw [StoredProperty.releaseBlob, Task.attempt]
  refine ⟨plain blob member, fun result _met => ?_⟩
  cases result with
  | ok there => trivial
  | error error => exact ⟨trivial, fun _unit _met => trivial⟩

theorem removeProperty {bundle : Bundle} (plain : bundle.Plain) (name : Name) :
    (bundle.removeProperty name : Task ε _).Plainly (fun removed => removed.2.Plain) := by
  rw [Bundle.removeProperty]
  cases found : bundle.properties.find? name with
  | none => exact plain
  | some stored => exact (release (plain.found found)).bind (fun _unit _met => plain.erase name)

theorem addProperty {bundle : Bundle} (plain : bundle.Plain) (state : Property) (threshold : Nat) :
    (bundle.addProperty state threshold : Task ε _).Plainly (fun added => added.2.Plain) := by
  rw [Bundle.addProperty]
  split
  · exact plain
  · apply (removeProperty plain state.id.name).bind
    intro removed cleared
    apply orElse
    · exact (ofProperty state threshold).bind
        (fun stored stores => cleared.insert state.id.name stores)
    · exact fun _error => cleared

theorem releaseBlobs {bundle : Bundle} (plain : bundle.Plain) :
    (bundle.releaseBlobs : Task ε Unit).Plainly (fun _ => True) :=
  forM (fun stored member => release (plain stored member))

/-! ### Fetching -/

theorem markOld {bundle : Bundle} (plain : bundle.Plain) : bundle.markOld.Plain := plain

abbrev Found (found : Option Bundle) : Prop := ∀ bundle, found = some bundle → bundle.Plain

theorem fetchBundle (id : NodeId) : (BundleStore.fetchBundle id).Plainly Found := by
  rw [BundleStore.fetchBundle, Task.Plainly, Task.meets_bind]
  refine ⟨trivial, fun known answers => ?_⟩
  cases known with
  | missing => exact fun _bundle impossible => by cases impossible
  | present bundle => exact fun _bundle same => Option.some.inj same ▸ answers
  | unknown =>
      refine ⟨trivial, fun generation _met => ?_⟩
      have loaded : (Task.call (.loadBundle id)).Plainly Found := by
        apply Plainly.call
        · exact trivial
        · rintro found answers bundle rfl
          exact answers
      apply loaded.bind
      intro found plain
      refine ⟨trivial, fun _kept _met bundle same => ?_⟩
      obtain ⟨stored, held, rfl⟩ := Option.map_eq_some_iff.mp same
      exact markOld (plain stored held)

theorem fetch (id : NodeId) : (Repository.fetch id).Plainly Found :=
  (fetchBundle id).mapError RepositoryError.storage

theorem required {found : Option α} (item : ItemId) (met : ∀ value, found = some value → mid value) :
    (Repository.required item found).Plainly mid := by
  cases found with
  | none => trivial
  | some value => exact met value rfl

theorem fetchNode (id : NodeId) : (Repository.fetchNode id).Plainly Bundle.Plain :=
  (fetch id).bind (fun _found plain => required (.node id) plain)

theorem loadProperty (id : PropertyId) :
    (Repository.loadProperty id).Plainly (fun _ => True) := by
  apply (fetch id.node).bind
  intro found plain
  apply (required (.property id) plain).bind
  intro bundle stored
  apply ((property? stored id.name).mapError RepositoryError.storage).bind
  intro state _met
  cases state with
  | some state => trivial
  | none =>
      cases bundle.computeProperty id.name with
      | none => trivial
      | some given => exact ⟨trivial, fun _unit _met => trivial⟩

theorem references (target : NodeId) :
    (Repository.call (.loadReferences target)).Plainly (fun _ => True) := repositoryCall trivial

theorem request (request : Request) : request.task.Plainly (fun _ => True) := by
  cases request with
  | loadNode id => exact ((fetchNode id).bind (fun bundle _stored => pure bundle.toNode)).forget
  | existsNode id => exact ((fetch id).bind (fun found _plain => pure found.isSome)).forget
  | loadProperty id => exact (loadProperty id).forget
  | existsProperty id =>
      exact ((fetch id.node).bind
        (fun found _plain => pure (found.any (·.hasProperty id.name)))).forget
  | loadReferences target =>
      have loaded : (Repository.loadReferences target).Plainly (fun _ => True) :=
        (references target).bind
          (fun _found _met => required (.node target) (fun _value _same => trivial))
      exact loaded.forget
  | existsReferences target =>
      exact ((references target).bind (fun found _met => pure found.isSome)).forget
  | evict id => exact ⟨trivial, fun _unit _met => trivial⟩
  | close => exact ⟨trivial, fun _unit _met => trivial⟩

/-! ### Stores -/

abbrev Staged (staged : Repository.Staged) : Prop :=
  ∀ id bundle, staged.find? id = some bundle → bundle.Plain

theorem staged_insert {staged : Repository.Staged} (plain : Staged staged) (id : NodeId)
    {bundle : Bundle} (stored : bundle.Plain) : Staged (staged.insert id bundle) := by
  intro other held found
  by_cases same : other = id
  · rw [same, SortedMap.find?_insert_self] at found
    cases found
    exact stored
  · rw [SortedMap.find?_insert_of_ne _ same] at found
    exact plain other held found

theorem stagedBundle {staged : Repository.Staged} (plain : Staged staged) (id : NodeId) :
    (Repository.stagedBundle staged id).Plainly Bundle.Plain := by
  rw [Repository.stagedBundle]
  cases found : staged.find? id with
  | some bundle => exact plain id bundle found
  | none => exact fetchNode id

theorem updateNode (staged : Repository.Staged) (node : Node) (plain : Staged staged) :
    (Repository.updateNode staged node).Plainly Staged :=
  (stagedBundle plain node.id).bind (fun _bundle stored => staged_insert plain node.id stored)

theorem putProperty (threshold : Nat) (staged : Repository.Staged) (state : Property)
    (plain : Staged staged) : (Repository.putProperty threshold staged state).Plainly Staged := by
  apply (stagedBundle plain state.id.node).bind
  intro bundle stored
  apply (addProperty stored state threshold).bind
  rintro ⟨result, added⟩ put
  cases result with
  | ok _unit => exact staged_insert plain state.id.node put
  | error error => exact trivial

theorem modifyProperty (threshold : Nat) (staged : Repository.Staged) (state : Property)
    (plain : Staged staged) : (Repository.modifyProperty threshold staged state).Plainly Staged := by
  rw [Repository.modifyProperty]
  split
  · exact plain
  · exact putProperty threshold staged state plain

theorem warnUnlessStaged (staged : Repository.Staged) (node : NodeId) (warning : Warning) :
    (Repository.warnUnlessStaged staged node warning).Plainly (fun _ => True) := by
  rw [Repository.warnUnlessStaged]
  split
  · trivial
  · exact ⟨trivial, fun _unit _met => trivial⟩

theorem dropProperty (gone : SortedSet NodeId) (staged : Repository.Staged) (state : Property)
    (plain : Staged staged) : (Repository.dropProperty gone staged state).Plainly Staged := by
  rw [Repository.dropProperty]
  split
  · exact plain
  · apply (warnUnlessStaged staged state.id.node _).bind
    intro _unit _met
    apply (stagedBundle plain state.id.node).bind
    intro bundle stored
    exact (removeProperty stored state.id.name).bind
      (fun _removed cleared => staged_insert plain state.id.node cleared)

theorem addedProperty (threshold : Nat) (staged : Repository.Staged) (state : Property)
    (plain : Staged staged) : (Repository.addProperty threshold staged state).Plainly Staged := by
  rw [Repository.addProperty]
  split
  · exact plain
  · exact (warnUnlessStaged staged state.id.node _).bind
      (fun _unit _met => putProperty threshold staged state plain)

theorem stageAdded (nodes : List Node) : Staged (Repository.stageAdded nodes) := by
  have each (nodes : List Node) (staged : Repository.Staged) (plain : Staged staged) :
      Staged (nodes.foldl (fun staged node => staged.insert node.id (Bundle.ofNode node)) staged) := by
    induction nodes generalizing staged with
    | nil => exact plain
    | cons node rest ih =>
        exact ih _ (staged_insert plain node.id (Bundle.Plain.ofNode node))
  exact each nodes SortedMap.empty (fun _id _bundle impossible => by cases impossible)

theorem stageChanges (threshold : Nat) (log : ChangeLog) (gone : SortedSet NodeId) :
    (Repository.stageChanges threshold log gone).Plainly Staged := by
  apply (foldlM updateNode (stageAdded log.addedNodes)).bind
  intro updated plain
  apply (foldlM (modifyProperty threshold) plain).bind
  intro modified plain
  apply (foldlM (dropProperty gone) plain).bind
  intro dropped plain
  exact foldlM (addedProperty threshold) plain

theorem deleteNode (node : Node) : (Repository.deleteNode node).Plainly (fun _ => True) := by
  apply (fetchNode node.id).bind
  intro bundle plain
  have destroyed : (Repository.call (.destroyBundle bundle.id)).Plainly (fun _ => True) :=
    repositoryCall trivial
  apply destroyed.bind
  intro _unit _met
  exact (releaseBlobs plain).bind (fun _unit _met => ⟨trivial, fun _unit _met => trivial⟩)

theorem deleteNodes (nodes : List Node) (gone : SortedSet NodeId) :
    (Repository.deleteNodes nodes gone).Plainly (fun _ => True) := by
  induction nodes generalizing gone with
  | nil => trivial
  | cons node rest ih => exact (deleteNode node).bind (fun _unit _met => ih _)

theorem warnParent (gone : SortedSet NodeId) (staged : Repository.Staged) (node : Node) :
    (Repository.warnParent gone staged node).Plainly (fun _ => True) := by
  rw [Repository.warnParent]
  split
  · trivial
  · split
    · trivial
    · exact ⟨trivial, fun _unit _met => trivial⟩

theorem writeBundle {bundle : Bundle} (plain : bundle.Plain) :
    (Repository.writeBundle bundle).Plainly (fun _ => True) := by
  have stored : (Repository.call (.storeBundle bundle)).Plainly (fun _ => True) :=
    repositoryCall plain
  exact stored.bind (fun _unit _met => ⟨trivial, fun _refreshed _met => trivial⟩)

theorem writeReferences (references : References) :
    (Repository.writeReferences references).Plainly (fun _ => True) := by
  rw [Repository.writeReferences]
  split
  · exact repositoryCall trivial
  · exact repositoryCall trivial

theorem apply (threshold : Nat) (log : ChangeLog) :
    (Repository.apply threshold log).Plainly (fun _ => True) := by
  apply (deleteNodes log.deletedNodes SortedMap.empty).bind
  intro gone _met
  apply (stageChanges threshold log gone).bind
  intro staged plain
  apply (forM (fun node _member => warnParent gone staged node)).bind
  intro _unit _met
  have written : (staged.values.forM Repository.writeBundle).Plainly (fun _ => True) := by
    apply forM
    intro bundle member
    obtain ⟨id, held⟩ := SortedMap.mem_values.mp member
    exact writeBundle (plain id bundle held)
  exact written.bind (fun _unit _met => forM (fun references _member => writeReferences references))

theorem store (threshold : Nat) (log : ChangeLog) :
    (Repository.store threshold log).Plainly (fun _ => True) :=
  (apply threshold log).orElse
    (fun _error => ⟨trivial, fun _unit _met => ⟨trivial, fun _unit _met => trivial⟩⟩)

end Task.Plainly

end BundleStore
