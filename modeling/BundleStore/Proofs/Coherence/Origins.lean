import BundleStore.Proofs.Coherence.Runs

set_option autoImplicit false

/-! Where what the cache says of a node comes from. An entry is kept from before, has been loaded by
the task that fills it in, or is the news of the writer. So if every record that the node has had
for some time fits a description, all that the cache says of it fits too, also while the cache is
behind. What a reader gets is read off such a record, and off the blobs as they are. -/

namespace BundleStore

variable {backend : Backend}

namespace System

/-- The entry is one that was there, at most with more computed, or it is what the task that has
just acted had loaded under the present write count. -/
inductive Stems (system : System backend) (stage : Stage) (id : NodeId) (entry : CacheEntry) :
    Prop where
  | kept (earlier : CacheEntry) (held : system.cache.held? id = some earlier)
      (tells : ∀ record, earlier.Tells record → entry.Tells record)
  | brought (found : Option Bundle)
      (loaded : stage = .loaded id (system.cache.generation id) found) (tells : entry.Tells found)

variable {system : System backend} {now : Moment} {stage : Stage} {action : Action} {id : NodeId}
  {entry : CacheEntry}

theorem Stems.same (held : system.cache.held? id = some entry) : Stems system stage id entry :=
  Stems.kept entry held (fun _record tells => tells)

/-- What an entry for a loaded bundle says is what was loaded. -/
theorem ofLoaded_tells {found : Option Bundle}
    (recorded : ∀ bundle, found = some bundle → bundle.record = bundle) :
    (CacheEntry.ofLoaded (found.map Bundle.markOld)).Tells found := by
  cases found with
  | none => rfl
  | some bundle => exact congrArg some (recorded bundle rfl).symm

theorem stems_of_fill {noted : Nat} {found : Option Bundle} {other : NodeId}
    (sharded : 0 < system.cache.entries.shards.length)
    (recorded : ∀ bundle, found = some bundle → bundle.record = bundle)
    (held : (system.cache.fill other (found.map Bundle.markOld) noted).2.held? id = some entry) :
    Stems system (.loaded other noted found) id entry := by
  have filled := ShardedCache.fill_filled sharded other
    (CacheEntry.ofLoaded (found.map Bundle.markOld))
    (CacheEntry.ofLoaded (found.map Bundle.markOld)).weight noted
  rcases filled.value? held with ⟨rfl, rfl, current⟩ | before
  · exact Stems.brought found (congrArg (Stage.loaded id · found) current.symm)
      (ofLoaded_tells recorded)
  · exact Stems.same before

theorem stems_of_keepComputed {other : NodeId} {before after : Bundle}
    (sharded : 0 < system.cache.entries.shards.length) (recorded : after.record = before.record)
    (held : (system.cache.keepComputed other before after).held? id = some entry) :
    Stems system stage id entry := by
  rw [BundleCache.held?, BundleCache.entries_keepComputed, ShardedCache.value?_amend sharded] at held
  split at held
  · obtain ⟨earlier, seen, changed⟩ := Option.map_eq_some_iff.mp held
    refine Stems.kept earlier seen (fun record tells => ?_)
    rw [CacheEntry.computing] at changed
    split at changed
    · rename_i computed
      rw [computed] at tells
      rw [← changed]
      exact tells.trans (congrArg some recorded.symm)
    · rw [← changed]
      exact tells
  · exact Stems.same held

theorem stems_reading (sharded : 0 < system.cache.entries.shards.length)
    (valid : stage.Valid (system.scene now)) (permits : stage.Permits action)
    (held : (serve action system).2.cache.held? id = some entry) : Stems system stage id entry := by
  cases action with
  | warn warning => exact Stems.same held
  | storage call => exact Stems.same held
  | cache step =>
      cases step with
      | lookup other =>
          change (system.cache.lookup other).2.held? id = some entry at held
          rw [BundleCache.held?_lookup sharded] at held
          exact Stems.same held
      | generation other => exact Stems.same held
      | fill other found generation =>
          obtain ⟨loaded, rfl, rfl⟩ := permits
          exact stems_of_fill sharded (fun bundle same => (valid.2.1 bundle same).2) held
      | invalidate other =>
          have removed := ShardedCache.remove_wrote sharded other
          have either := removed.value? held
          split at either
          · cases either
          · exact Stems.same either
      | clear =>
          have gone : system.cache.clear.held? id = none :=
            ShardedCache.value?_clear system.cache.entries id
          change system.cache.clear.held? id = some entry at held
          rw [gone] at held
          cases held
      | keepComputed other before after => exact stems_of_keepComputed sharded permits.2 held
      | _ => exact absurd permits (fun impossible => impossible)

/-- A writer's entry may also be the news it owes. -/
theorem stems_writing (sharded : 0 < system.cache.entries.shards.length)
    (valid : now.stage.Valid (system.scene now)) (permits : now.Permits action)
    (held : (serve action system).2.cache.held? id = some entry) :
    Stems system now.stage id entry ∨ entry.Tells (now.contents.bundles id) := by
  cases action with
  | warn warning => exact Or.inl (Stems.same held)
  | storage call => exact Or.inl (Stems.same held)
  | cache step =>
      cases step with
      | refresh bundle =>
          obtain ⟨_owing, _ready, stored⟩ := permits
          have replaced := ShardedCache.replace_wrote sharded bundle.id (CacheEntry.present bundle)
            (CacheEntry.present bundle).weight
          have either := replaced.value? held
          split at either
          · rename_i same
            rw [← Option.some.inj either, same]
            exact Or.inr stored
          · exact Or.inl (Stems.same either)
      | putMissing other =>
          obtain ⟨_owing, absent⟩ := permits
          have wrote := ShardedCache.put_wrote sharded other CacheEntry.missing
            CacheEntry.missingWeight
          have either := wrote.value? held
          split at either
          · rename_i same
            rw [← Option.some.inj either, same]
            exact Or.inr absent
          · exact Or.inl (Stems.same either)
      | put bundle => exact absurd permits (fun impossible => impossible)
      | _ =>
          apply Or.inl
          refine stems_reading sharded valid ?_ held
          exact permits

end System

instance (entry : CacheEntry) (record : Option Bundle) : Decidable (entry.Tells record) :=
  match entry with
  | .missing => inferInstanceAs (Decidable (record = none))
  | .present bundle => inferInstanceAs (Decidable (record = some bundle.record))

theorem CacheEntry.Tells.unique {entry : CacheEntry} {left right : Option Bundle}
    (tells : entry.Tells left) (also : entry.Tells right) : left = right := by
  cases entry with
  | present bundle => exact Eq.trans tells (Eq.symm also)
  | missing => exact Eq.trans tells (Eq.symm also)

/-! ### What fits a description -/

section

variable {fits : Option Bundle → Prop} {id : NodeId} {stage : Stage} {system : System backend}
  {now : Moment} {action : Action}

/-- What the task has loaded of the node fits, if it may still come into the cache. -/
def Stage.Brings (fits : Option Bundle → Prop) (id : NodeId) (generation : Nat) (stage : Stage) :
    Prop :=
  ∀ found, stage = .loaded id generation found → fits found

/-- All that the cache says of the node fits. -/
def System.Says (fits : Option Bundle → Prop) (id : NodeId) (system : System backend) : Prop :=
  ∀ entry, system.cache.held? id = some entry → ∃ record, fits record ∧ entry.Tells record

theorem Stage.Brings.mono {wider : Option Bundle → Prop} {generation : Nat}
    (brings : stage.Brings fits id generation) (implied : ∀ record, fits record → wider record) :
    stage.Brings wider id generation :=
  fun found loaded => implied found (brings found loaded)

theorem System.Says.mono {wider : Option Bundle → Prop} (stated : system.Says fits id)
    (implied : ∀ record, fits record → wider record) : system.Says wider id := by
  intro entry held
  obtain ⟨record, described, tells⟩ := stated entry held
  exact ⟨record, implied record described, tells⟩

theorem Stage.Brings.follows {before after : Scene}
    (brings : stage.Brings fits id (before.generation id)) (valid : stage.Valid before)
    (follows : after.Follows before) : stage.Brings fits id (after.generation id) := by
  intro found loaded
  have notAhead : after.generation id ≤ before.generation id := by
    rw [loaded] at valid
    exact valid.1
  have same : after.generation id = before.generation id :=
    Nat.le_antisymm notAhead (follows.generation id)
  exact brings found (same ▸ loaded)

/-- Only loading a bundle makes something loaded, and then it is the record. -/
theorem Stage.loaded_after (sound : system.Sound now)
    (noted : ∀ other, action = .storage (.loadBundle other) → ∃ count, stage = .noted other count)
    {generation : Nat} {found : Option Bundle}
    (loaded : stage.after action (System.serve action system).1 = .loaded id generation found) :
    stage = .loaded id generation found ∨ found = now.contents.bundles id := by
  cases action with
  | warn warning => exact Or.inl loaded
  | cache step =>
      cases step with
      | generation other => cases loaded
      | fill other found generation => cases loaded
      | refresh bundle => cases loaded
      | putMissing other => cases loaded
      | clear => cases loaded
      | _ => exact Or.inl loaded
  | storage call =>
      cases call with
      | storeBundle bundle => cases loaded
      | destroyBundle other => cases loaded
      | checkConsistency ids recursive repair =>
          cases repair with
          | false => exact Or.inl loaded
          | true =>
              cases outcome : (System.serve (.storage (.checkConsistency ids recursive true)) system).1 with
              | ok problems =>
                  rw [outcome] at loaded
                  cases loaded
              | error error =>
                  rw [outcome] at loaded
                  exact Or.inl loaded
      | loadBundle other =>
          cases outcome : (System.serve (.storage (.loadBundle other)) system).1 with
          | error error =>
              rw [outcome] at loaded
              exact Or.inl loaded
          | ok value =>
              rw [outcome] at loaded
              have record : value = now.contents.bundles other := by
                rw [← sound.contents]
                exact (backend.answered outcome).2
              obtain ⟨count, rfl⟩ := noted other rfl
              cases loaded
              exact Or.inr record
      | _ => exact Or.inl loaded

theorem Stage.brings_after (sound : system.Sound now)
    (noted : ∀ other, action = .storage (.loadBundle other) → ∃ count, stage = .noted other count)
    (valid : stage.Valid (system.scene now)) {next : Moment}
    (follows : ((System.serve action system).2.scene next).Follows (system.scene now))
    (record : fits (now.contents.bundles id))
    (brings : stage.Brings fits id (system.cache.generation id)) :
    (stage.after action (System.serve action system).1).Brings fits id
      ((System.serve action system).2.cache.generation id) := by
  intro found loaded
  rcases loaded_after sound noted loaded with still | fresh
  · exact brings.follows valid follows found still
  · rw [fresh]
    exact record

namespace System

theorem Stems.described {entry : CacheEntry} (stems : Stems system stage id entry)
    (stated : system.Says fits id) (brings : stage.Brings fits id (system.cache.generation id)) :
    ∃ record, fits record ∧ entry.Tells record := by
  cases stems with
  | kept earlier held tells =>
      obtain ⟨record, described, told⟩ := stated earlier held
      exact ⟨record, described, tells record told⟩
  | brought found loaded tells => exact ⟨found, brings found loaded, tells⟩

theorem Says.reading (stated : system.Says fits id) (sharded : 0 < system.cache.entries.shards.length)
    (valid : stage.Valid (system.scene now)) (permits : stage.Permits action)
    (brings : stage.Brings fits id (system.cache.generation id)) :
    (serve action system).2.Says fits id :=
  fun _entry held => (stems_reading sharded valid permits held).described stated brings

theorem Says.writing (stated : system.Says fits id) (sharded : 0 < system.cache.entries.shards.length)
    (valid : now.stage.Valid (system.scene now)) (permits : now.Permits action)
    (brings : now.stage.Brings fits id (system.cache.generation id))
    (record : fits (now.contents.bundles id)) : (serve action system).2.Says fits id := by
  intro entry held
  rcases stems_writing sharded valid permits held with stems | news
  · exact stems.described stated brings
  · exact ⟨_, record, news⟩

end System

end

/-! ### Reading at any time -/

/-- Asks for a blob, or keeps a computed state. -/
def Action.IsLook : Action → Prop
  | .storage (.getBlob _) => True
  | .cache (.keepComputed _ _ _) => True
  | _ => False

def looking : Rule Unit := fun action stated _ =>
  action.IsLook ∧ ∀ result, stated result ()

theorem looking_monotone : looking.Monotone :=
  fun _action _state _stated _needed implied met =>
    ⟨met.1, fun result => implied result () (met.2 result)⟩

/-- The task depends on nothing but the blobs. -/
abbrev Task.Looks {ε α : Type} (task : Task ε α) : Prop :=
  task.Meets looking (fun _ _ => True) (fun _ _ => True) ()

namespace Task.Looks

variable {ε ε' α β : Type}

theorem bind {task : Task ε α} {next : α → Task ε β} (first : task.Looks)
    (later : ∀ value, (next value).Looks) : (task >>= next).Looks := by
  rw [Looks, meets_bind]
  exact first.mono looking_monotone (fun value _ _ => later value) (fun _error _ failed => failed)

theorem mapError {task : Task ε α} (change : ε → ε') (looks : task.Looks) :
    (task.mapError change).Looks := by
  rw [Looks, meets_mapError]
  exact looks

theorem mapM {task : α → Task ε β} (each : ∀ element, (task element).Looks) (list : List α) :
    (list.mapM task).Looks := by
  induction list with
  | nil => trivial
  | cons element rest ih =>
      rw [List.mapM_cons]
      exact (each element).bind (fun _value => ih.bind (fun _values => trivial))

end Task.Looks

theorem fetchValue_looks (stored : StoredValue) : (StoredProperty.fetchValue stored).Looks := by
  cases stored with
  | inline value => trivial
  | blob blob length =>
      have got : (Task.call (.getBlob blob)).Looks :=
        Task.meets_call ⟨trivial, fun result => by cases result <;> trivial⟩
      exact got.bind (fun _bytes => trivial)

theorem Repository.propertyOf_looks (id : PropertyId) (found : Option Bundle) :
    (propertyOf id found).Looks := by
  cases found with
  | none => trivial
  | some bundle =>
      have held : (bundle.property? id.name).Looks := by
        rw [Bundle.property?]
        cases bundle.properties.find? id.name with
        | none => trivial
        | some stored =>
            have whole : stored.toProperty.Looks :=
              (Task.Looks.mapM fetchValue_looks stored.values).bind (fun _values => trivial)
            exact whole.bind (fun _state => trivial)
      refine (held.mapError RepositoryError.storage).bind (fun state => ?_)
      cases state with
      | some state => trivial
      | none =>
          cases bundle.computeProperty id.name with
          | none => trivial
          | some given => exact ⟨trivial, fun _unit => trivial⟩

/-- What holds of a task that only looks, over contents with the same blobs, holds of its run. -/
theorem Task.Meets.run_looks (reliable : backend.FailsOnly Faults.none) {ε α : Type}
    {task : Task ε α} {ends : α → Moment → Prop} {fails : ε → Moment → Prop} {now : Moment}
    (meets : task.Meets (writing Faults.none) ends fails now) (looks : task.Looks)
    {system : System backend} (blobs : now.contents.blobs = system.contents.blobs) :
    ∃ next, match (task.run System.serve system).1 with
      | .ok value => ends value next
      | .error error => fails error next := by
  induction task generalizing system now with
  | done value => exact ⟨now, meets⟩
  | fail error => exact ⟨now, meets⟩
  | act action rest ih =>
      obtain ⟨look, looksOn⟩ := looks
      have goesOn (after : System backend) (result : action.Result)
          (same : after.contents.blobs = system.contents.blobs)
          (does : action.Does Faults.none result now.contents now.contents)
          (served : System.serve action system = (result, after)) :
          ∃ next, match ((Task.act action rest).run System.serve system).1 with
            | .ok value => ends value next
            | .error error => fails error next := by
        rw [Task.run_act, served]
        exact ih result (meets.2 result ⟨now.stage.after action result, now.contents⟩ ⟨rfl, does⟩)
          (looksOn result) (blobs.trans same.symm)
      cases action with
      | warn warning => exact look.elim
      | cache step =>
          cases step with
          | keepComputed id before after =>
              exact goesOn { system with cache := system.cache.keepComputed id before after } () rfl
                rfl rfl
          | _ => exact look.elim
      | storage call =>
          cases call with
          | getBlob blob =>
              have same := backend.contents_getBlob system.storage blob
              refine goesOn (System.serve (.storage (.getBlob blob)) system).2 _
                (congrArg Contents.blobs same) ?_ rfl
              change Action.Does Faults.none (.storage (.getBlob blob))
                (backend.serve (.getBlob blob) system.storage).1 now.contents now.contents
              cases outcome : (backend.serve (.getBlob blob) system.storage).1 with
              | ok bytes =>
                  have there := (backend.answered outcome).2
                  exact ⟨rfl, (congrFun blobs blob).trans there⟩
              | error error =>
                  obtain ⟨absent, rfl⟩ := reliable outcome
                  exact ⟨⟨(congrFun blobs blob).trans absent, rfl⟩, Or.inl rfl⟩
          | _ => exact look.elim

namespace System

variable {system : System backend} {now : Moment}

/-- What a read goes by: what the cache says of the node, or else its record. -/
def GoesBy (system : System backend) (id : NodeId) (record : Option Bundle) : Prop :=
  match system.cache.held? id with
  | some entry => entry.Tells record
  | none => record = system.contents.bundles id

instance (id : NodeId) (record : Option Bundle) : Decidable (system.GoesBy id record) :=
  match held : system.cache.held? id with
  | some entry => decidable_of_iff (entry.Tells record) (by unfold GoesBy; rw [held])
  | none => decidable_of_iff (record = system.contents.bundles id) (by unfold GoesBy; rw [held])

theorem GoesBy.unique {id : NodeId} {record other : Option Bundle}
    (goesBy : system.GoesBy id record) (again : system.GoesBy id other) : record = other := by
  unfold GoesBy at goesBy again
  cases held : system.cache.held? id with
  | none =>
      rw [held] at goesBy again
      exact goesBy.trans again.symm
  | some entry =>
      rw [held] at goesBy again
      exact goesBy.unique again

theorem property_of_fetched (reliable : backend.FailsOnly Faults.none) {system after : System backend}
    {id : PropertyId} {found : Option Bundle}
    (fetched : (Repository.fetch id.node).run serve system = (.ok found, after))
    (blobs : after.contents.blobs = system.contents.blobs)
    (filed : ∀ bundle, found = some bundle → bundle.id = id.node ∧ bundle.Ready) :
    ∃ seen : Contents, seen.blobs = system.contents.blobs ∧
      seen.bundles id.node = found.map Bundle.record ∧ system.property id = seen.property id := by
  let seen := system.contents.setting id.node (found.map Bundle.record) (fun {record} same => by
    obtain ⟨bundle, given, rfl⟩ := Option.map_eq_some_iff.mp same
    exact ⟨(filed bundle given).1, rfl⟩)
  have told : seen.bundles id.node = found.map Bundle.record := Function.update_self ..
  refine ⟨seen, rfl, told, ?_⟩
  rw [property, Repository.loadProperty_eq, Task.run_bind, fetched]
  change ((Repository.propertyOf id found).run serve after).1 = _
  cases found with
  | none =>
      unfold Contents.property
      rw [entryOf_of_none told, told]
      rfl
  | some bundle =>
      have answers : (Repository.propertyOf id (some bundle)).Answers seen (seen.property id) :=
        Repository.propertyOf_answers id (filed bundle rfl).2 told
      obtain ⟨_next, outcome⟩ := answers.run_looks reliable
        (Repository.propertyOf_looks id (some bundle)) blobs.symm
      cases given : ((Repository.propertyOf id (some bundle)).run serve after).1 with
      | ok state =>
          rw [given] at outcome
          exact outcome.2.symm
      | error error =>
          rw [given] at outcome
          exact outcome.2.symm

theorem fetch_present {id : NodeId} {bundle : Bundle}
    (held : system.cache.held? id = some (.present bundle)) :
    (Repository.fetch id).run serve system =
      (.ok (some bundle), { system with cache := (system.cache.lookup id).2 }) := by
  have answered : (system.cache.lookup id).1 = .present bundle := by
    rw [BundleCache.lookup_held, held]
  simp only [Repository.fetch, fetchBundle, Task.cache, bind, Task.bind, Task.mapError, Task.run,
    serve, BundleCache.serve, answered, pure]

theorem fetch_missing {id : NodeId} (held : system.cache.held? id = some .missing) :
    (Repository.fetch id).run serve system =
      (.ok none, { system with cache := (system.cache.lookup id).2 }) := by
  have answered : (system.cache.lookup id).1 = .missing := by
    rw [BundleCache.lookup_held, held]
  simp only [Repository.fetch, fetchBundle, Task.cache, bind, Task.bind, Task.mapError, Task.run,
    serve, BundleCache.serve, answered, pure]

theorem fetch_unknown (reliable : backend.FailsOnly Faults.none) {id : NodeId}
    (held : system.cache.held? id = none) : ∃ after : System backend,
      (Repository.fetch id).run serve system =
        (.ok ((system.contents.bundles id).map Bundle.markOld), after) ∧
      after.contents = system.contents := by
  have answered : (system.cache.lookup id).1 = .unknown := by
    rw [BundleCache.lookup_held, held]
  have same := backend.contents_loadBundle system.storage id
  cases outcome : (backend.serve (.loadBundle id) system.storage).1 with
  | error error => exact (reliable outcome).elim
  | ok found =>
      have record : found = system.contents.bundles id := (backend.answered outcome).2
      refine ⟨⟨(backend.serve (.loadBundle id) system.storage).2,
        ((system.cache.lookup id).2.fill id (found.map Bundle.markOld)
          ((system.cache.lookup id).2.entries.generation id)).2⟩, ?_, same⟩
      simp only [Repository.fetch, fetchBundle, Task.cache, Task.call, bind, Task.bind,
        Task.mapError, Task.run, serve, BundleCache.serve, answered, outcome, Task.ofExcept, pure,
        record]

/-- A read that runs to its end while a write is on its way gives what is stored under the record
that the read goes by. -/
theorem Sound.property_seen (reliable : backend.FailsOnly Faults.none) (sound : system.Sound now)
    (id : PropertyId) : ∃ seen : Contents, seen.blobs = system.contents.blobs ∧
      system.GoesBy id.node (seen.bundles id.node) ∧ system.property id = seen.property id := by
  have told {found : Option Bundle} {after : System backend}
      (fetched : (Repository.fetch id.node).run serve system = (.ok found, after))
      (same : after.contents = system.contents)
      (filed : ∀ bundle, found = some bundle → bundle.id = id.node ∧ bundle.Ready)
      (goesBy : system.GoesBy id.node (found.map Bundle.record)) :
      ∃ seen : Contents, seen.blobs = system.contents.blobs ∧
        system.GoesBy id.node (seen.bundles id.node) ∧ system.property id = seen.property id := by
    obtain ⟨seen, blobs, record, reads⟩ := property_of_fetched reliable fetched
      (congrArg Contents.blobs same) filed
    exact ⟨seen, blobs, record ▸ goesBy, reads⟩
  unfold GoesBy at told ⊢
  cases held : system.cache.held? id.node with
  | none =>
      obtain ⟨after, fetched, same⟩ := fetch_unknown reliable held
      rw [held] at told
      have loaded := fetched_loaded system.contents id.node
      refine told fetched same (fun bundle found => ⟨?_, loaded.ready bundle found⟩) loaded.record
      have recorded := congrArg (Option.map Bundle.record) found
      rw [loaded.record] at recorded
      exact (system.contents.filed recorded : bundle.record.id = id.node)
  | some entry =>
      rw [held] at told
      cases entry with
      | missing =>
          exact told (fetch_missing held) rfl (fun _bundle impossible => by cases impossible) rfl
      | present bundle =>
          refine told (fetch_present held) rfl (fun other same => ?_) rfl
          rw [← Option.some.inj same]
          exact sound.filed held

end System

end BundleStore
