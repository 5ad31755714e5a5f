import BundleStore.Proofs.Coherence.System

set_option autoImplicit false

/-! Each action that a disciplined task takes keeps the system sound. What a reader may do is
treated first; a writer may do the same, and its writes besides. -/

namespace BundleStore

namespace Backend

variable {backend : Backend}

theorem contents_read (call : StorageCall)
    (reads : ∀ result before after, call.Does result before after → after = before)
    (state : backend.State) :
    backend.contents (backend.serve call state).2 = backend.contents state := by
  cases outcome : (backend.serve call state).1 with
  | ok result => exact reads _ _ _ (backend.answered outcome)
  | error error =>
      rcases backend.failed outcome with same | ⟨_unchecked, result, done⟩
      · exact same
      · exact reads _ _ _ done

theorem contents_loadBundle (state : backend.State) (id : NodeId) :
    backend.contents (backend.serve (.loadBundle id) state).2 = backend.contents state :=
  backend.contents_read (.loadBundle id) (fun _result _before _after done => done.1) state

theorem contents_loadReferences (state : backend.State) (target : NodeId) :
    backend.contents (backend.serve (.loadReferences target) state).2 = backend.contents state :=
  backend.contents_read (.loadReferences target) (fun _result _before _after done => done.1) state

theorem contents_getBlob (state : backend.State) (blob : String) :
    backend.contents (backend.serve (.getBlob blob) state).2 = backend.contents state :=
  backend.contents_read (.getBlob blob) (fun _result _before _after done => done.1) state

end Backend

/-- The entry of a bundle on which something was computed. -/
def CacheEntry.computing (before after : Bundle) (entry : CacheEntry) : CacheEntry :=
  if entry = .present before then .present after else entry

namespace BundleCache

variable {cache : BundleCache}

theorem entries_keepComputed (cache : BundleCache) (id : NodeId) (before after : Bundle) :
    (cache.keepComputed id before after).entries =
      cache.entries.amend id (CacheEntry.computing before after) := rfl

theorem entries_lookup (cache : BundleCache) (id : NodeId) :
    (cache.lookup id).2.entries = (cache.entries.get id).2 := by
  rw [lookup]
  split <;> rename_i answered <;> rw [answered]

theorem lookup_held (cache : BundleCache) (id : NodeId) :
    (cache.lookup id).1 = match cache.held? id with
      | some (.present bundle) => .present bundle
      | some .missing => .missing
      | none => .unknown := by
  have got : (cache.entries.get id).1 = cache.held? id := ShardedCache.get_eq cache.entries id
  rw [← got, lookup]
  split <;> rename_i answered <;> rw [answered]

theorem held?_lookup (sharded : 0 < cache.entries.shards.length) (id other : NodeId) :
    (cache.lookup id).2.held? other = cache.held? other := by
  rw [held?, entries_lookup]
  exact ShardedCache.value?_get sharded id other

end BundleCache

namespace System

variable {backend : Backend} {system : System backend} {now next : Moment}

theorem steps_lookup (sound : system.Sound now) (same : next.contents = now.contents)
    (known : ∀ id, ¬ next.stage.Behind id → ¬ now.stage.Behind id) (id : NodeId) :
    Steps system { system with cache := (system.cache.lookup id).2 } now next := by
  refine steps_quiet sound same known ?_ (fun other => ?_) (fun other entry held => ?_)
  · rw [BundleCache.entries_lookup]
    exact ShardedCache.get_alike system.cache.entries id
  · rw [BundleCache.generation, BundleCache.entries_lookup]
    exact ShardedCache.generation_get sound.sharded id other
  · rw [BundleCache.held?_lookup sound.sharded] at held
    exact ⟨entry, held, fun filed => filed, fun _record tells => tells⟩

theorem steps_keepComputed (sound : system.Sound now) (same : next.contents = now.contents)
    (known : ∀ id, ¬ next.stage.Behind id → ¬ now.stage.Behind id) (id : NodeId)
    {before after : Bundle} (ready : before.Ready → after.Ready)
    (recorded : after.record = before.record) :
    Steps system { system with cache := system.cache.keepComputed id before after } now next := by
  have entries := system.cache.entries_keepComputed id before after
  refine steps_quiet sound same known ?_ (fun other => ?_) (fun other entry held => ?_)
  · rw [entries]
    exact ShardedCache.amend_alike ..
  · rw [BundleCache.generation, entries]
    exact ShardedCache.generation_amend sound.sharded id _ other
  · rw [BundleCache.held?, entries, ShardedCache.value?_amend sound.sharded] at held
    split at held
    · obtain ⟨earlier, seen, changed⟩ := Option.map_eq_some_iff.mp held
      refine ⟨earlier, seen, ?_⟩
      rw [CacheEntry.computing] at changed
      split at changed
      · rename_i computed
        rw [computed, ← changed]
        refine ⟨fun filed => ⟨?_, ready filed.2⟩, fun record tells => ?_⟩
        · exact (congrArg Bundle.id recorded).trans filed.1
        · exact tells.trans (congrArg some recorded.symm)
      · rw [← changed]
        exact ⟨fun filed => filed, fun _record tells => tells⟩
    · exact ⟨entry, held, fun filed => filed, fun _record tells => tells⟩

theorem steps_invalidate (sound : system.Sound now) (same : next.contents = now.contents)
    (known : ∀ id, ¬ next.stage.Behind id → ¬ now.stage.Behind id) (id : NodeId) :
    Steps system { system with cache := system.cache.invalidate id } now next :=
  steps_wrote sound same (fun other _differs => known other)
    (ShardedCache.remove_wrote sound.sharded id) (fun _entry impossible => by cases impossible)

/-- What a reader does keeps the system sound, and itself in step. -/
theorem steps_reading (next : Moment) (sound : system.Sound now)
    (same : next.contents = now.contents)
    (known : ∀ id, ¬ next.stage.Behind id → ¬ now.stage.Behind id) {stage : Stage}
    (valid : stage.Valid (system.scene now)) {action : Action} (permits : stage.Permits action) :
    Steps system (serve action system).2 now next ∧
      (stage.after action (serve action system).1).Valid ((serve action system).2.scene next) := by
  have unmoved {storage : backend.State}
      (kept : backend.contents storage = backend.contents system.storage) :
      Steps system { system with storage } now next :=
    steps_storage sound (kept.trans (sound.contents.trans same.symm))
      (fun id nowKnown => ⟨known id nowKnown, by rw [same]⟩)
  cases action with
  | warn warning =>
      have step : Steps system system now next := unmoved rfl
      exact ⟨step, valid.follows step.follows⟩
  | storage call =>
      cases call with
      | loadBundle id =>
          obtain ⟨generation, noted⟩ := permits
          have step := unmoved (backend.contents_loadBundle system.storage id)
          constructor
          · exact step
          · change (stage.after (.storage (.loadBundle id))
              (backend.serve (.loadBundle id) system.storage).1).Valid _
            cases outcome : (backend.serve (.loadBundle id) system.storage).1 with
            | error error => exact valid.follows step.follows
            | ok found =>
                have answered := (backend.answered outcome).2
                have held : found = next.contents.bundles id := by
                  rw [same, ← sound.contents]
                  exact answered
                rw [noted] at valid ⊢
                refine ⟨valid, fun bundle loaded => ?_, fun _stood _known => held⟩
                rw [held] at loaded
                exact ⟨next.contents.filed loaded, next.contents.recorded loaded⟩
      | loadReferences target =>
          have step := unmoved (backend.contents_loadReferences system.storage target)
          exact ⟨step, valid.follows step.follows⟩
      | getBlob blob =>
          have step := unmoved (backend.contents_getBlob system.storage blob)
          exact ⟨step, valid.follows step.follows⟩
      | _ => exact absurd permits id
  | cache step =>
      cases step with
      | lookup id =>
          have step := steps_lookup sound same known id
          exact ⟨step, valid.follows step.follows⟩
      | generation id =>
          have step : Steps system system now next := unmoved rfl
          exact ⟨step, Nat.le_refl _⟩
      | fill id found generation =>
          obtain ⟨held, loaded, rfl⟩ := permits
          rw [loaded] at valid
          exact ⟨steps_filled sound same known valid, trivial⟩
      | invalidate id =>
          have step := steps_invalidate sound same known id
          exact ⟨step, valid.follows step.follows⟩
      | clear => exact ⟨steps_cleared sound same, trivial⟩
      | keepComputed id before after =>
          have step := steps_keepComputed sound same known id permits.1 permits.2
          exact ⟨step, valid.follows step.follows⟩
      | _ => exact absurd permits id

end System

/-! ### The writer -/

/-- The call may change the record of the node. -/
def StorageCall.Touches : StorageCall → NodeId → Prop
  | .storeBundle bundle, id => id = bundle.id
  | .destroyBundle gone, id => id = gone
  | .checkConsistency _ _ repair, _ => repair = true
  | _, _ => False

theorem StorageCall.Does.untouched {call : StorageCall} {result : call.Result}
    {before after : Contents} (does : call.Does result before after) {id : NodeId}
    (untouched : ¬ call.Touches id) : after.bundles id = before.bundles id := by
  cases call with
  | storeBundle bundle => rw [show after = _ from does]; exact Function.update_of_ne untouched ..
  | destroyBundle gone => rw [show after = _ from does]; exact Function.update_of_ne untouched ..
  | checkConsistency ids recursive repair =>
      cases repair with
      | true => exact absurd rfl untouched
      | false => rw [show after = before from does]
  | createBlobId property place => rw [does.1.bundles]
  | storeReferences references => rw [show after = _ from does]; rfl
  | destroyReferences target => rw [show after = _ from does]; rfl
  | putBlob blob bytes => rw [show after = _ from does]; rfl
  | removeBlob blob => rw [does.1]; rfl
  | loadBundle loaded => rw [does.1]
  | loadReferences target => rw [does.1]
  | getBlob blob => rw [does.1]

theorem StorageCall.Fails.untouched {call : StorageCall} {before after : Contents}
    (fails : call.Fails before after) {id : NodeId} (untouched : ¬ call.Touches id) :
    after.bundles id = before.bundles id := by
  rcases fails with same | ⟨_unchecked, result, does⟩
  · rw [same]
  · exact does.untouched untouched

/-- Where the cache is not behind after a call, it was not behind before, and the call has not
changed the record. -/
theorem Moment.Leads.known {faults : Faults} {now next : Moment} {call : StorageCall}
    {result : Except StorageError call.Result} (permits : now.Permits (.storage call))
    (leads : now.Leads faults (.storage call) result next) {id : NodeId}
    (known : ¬ next.stage.Behind id) :
    ¬ now.stage.Behind id ∧ next.contents.bundles id = now.contents.bundles id := by
  have unchanged (untouched : ¬ call.Touches id) :
      next.contents.bundles id = now.contents.bundles id := by
    cases result with
    | ok value => exact StorageCall.Does.untouched leads.contents untouched
    | error error => exact leads.contents.2.untouched untouched
  rw [leads.stage] at known
  cases call with
  | loadBundle loaded =>
      obtain ⟨generation, noted⟩ := permits
      rw [noted]
      exact ⟨fun behind => behind, unchanged (fun touched => touched)⟩
  | storeBundle bundle =>
      rw [show now.stage = .free from permits]
      exact ⟨fun behind => behind, unchanged known⟩
  | destroyBundle gone =>
      rw [show now.stage = .free from permits]
      exact ⟨fun behind => behind, unchanged known⟩
  | checkConsistency ids recursive repair =>
      have free : now.stage = .free := permits
      rw [free] at known ⊢
      constructor
      · exact fun behind => behind
      · cases result with
        | error error =>
            rcases leads.contents.2 with same | ⟨unchecked, _done⟩
            · rw [same]
            · cases unchecked
        | ok problems =>
            cases repair with
            | true => exact absurd trivial known
            | false => exact unchanged Bool.false_ne_true
  | _ => exact ⟨known, unchanged (fun touched => touched)⟩

namespace System

variable {backend : Backend} {system : System backend} {now next : Moment}

theorem leads_storage {faults : Faults} (only : backend.FailsOnly faults)
    (sound : system.Sound now) (call : StorageCall) :
    now.Leads faults (.storage call) (serve (.storage call) system).1
      ⟨now.stage.after (.storage call) (serve (.storage call) system).1,
        (serve (.storage call) system).2.contents⟩ := by
  constructor
  · rfl
  · change Action.Does faults (.storage call) (backend.serve call system.storage).1 now.contents
      (backend.contents (backend.serve call system.storage).2)
    rw [← sound.contents]
    cases outcome : (backend.serve call system.storage).1 with
    | ok value => exact backend.answered outcome
    | error error => exact ⟨only outcome, backend.failed outcome⟩

/-- To a writer with no news for the cache, the cache says what storage holds. -/
theorem lookup_tells (sound : system.Sound now) (free : now.stage = .free) (id : NodeId) :
    (system.cache.lookup id).1.Tells (now.contents.bundles id) := by
  have known : ¬ now.stage.Behind id := by
    rw [free]
    exact fun behind => behind
  rw [BundleCache.lookup_held]
  cases held : system.cache.held? id with
  | none => trivial
  | some entry =>
      have tells := sound.tells held known
      cases entry with
      | missing => exact tells
      | present bundle => exact ⟨(sound.filed held).2, tells⟩

/-- A writer that pays what it owes is behind with nothing. -/
theorem steps_paid (sound : system.Sound now) {id : NodeId} (owing : now.stage = .owing id)
    {entries : ShardedCache NodeId CacheEntry} {entry : CacheEntry}
    (wrote : ShardedCache.Wrote entries system.cache.entries id (some entry))
    (filed : entry.Filed id) (tells : entry.Tells (now.contents.bundles id)) :
    Steps system { system with cache := ⟨entries⟩ } now ⟨.free, now.contents⟩ := by
  refine steps_wrote sound rfl (fun other differs _known behind => ?_) wrote
    (fun held same => ?_)
  · rw [owing] at behind
    exact differs behind
  · rw [← Option.some.inj same]
    exact ⟨filed, tells⟩

/-- What a writer does keeps the system sound, and itself in step. -/
theorem steps_writing {faults : Faults} (only : backend.FailsOnly faults)
    (sound : system.Sound now) (valid : now.stage.Valid (system.scene now)) {action : Action}
    (permits : now.Permits action) :
    ∃ next, now.Leads faults action (serve action system).1 next ∧
      Steps system (serve action system).2 now next ∧
      next.stage.Valid ((serve action system).2.scene next) := by
  cases action with
  | warn warning =>
      have step : Steps system system now now :=
        steps_storage sound sound.contents (fun _id known => ⟨known, rfl⟩)
      exact ⟨now, ⟨rfl, rfl⟩, step, valid⟩
  | storage call =>
      have leads := leads_storage only sound call
      refine ⟨_, leads, ?_⟩
      have step := steps_storage sound rfl (fun id known => leads.known permits known)
      refine ⟨step, ?_⟩
      cases call with
      | loadBundle id =>
          have same : (serve (.storage (.loadBundle id)) system).2.contents = now.contents :=
            (backend.contents_loadBundle system.storage id).trans sound.contents
          have reads : now.stage.Permits (.storage (.loadBundle id)) := permits
          exact (steps_reading _ sound same (fun other known => (leads.known permits known).1) valid
            reads).2
      | storeBundle bundle => trivial
      | destroyBundle id => trivial
      | checkConsistency ids recursive repair =>
          have free : now.stage = .free := permits
          change (now.stage.after _ _).Valid _
          rw [free]
          cases repair with
          | false => trivial
          | true => cases (serve (.storage (.checkConsistency ids recursive true)) system).1 <;> trivial
      | _ => exact valid.follows step.follows
  | cache step =>
      cases step with
      | refresh bundle =>
          obtain ⟨owing, ready, held⟩ := permits
          exact ⟨⟨.free, now.contents⟩, ⟨rfl, rfl⟩, steps_paid sound owing
            (ShardedCache.replace_wrote sound.sharded bundle.id (.present bundle) _)
            ⟨rfl, ready⟩ held, trivial⟩
      | putMissing id =>
          obtain ⟨owing, gone⟩ := permits
          exact ⟨⟨.free, now.contents⟩, ⟨rfl, rfl⟩, steps_paid sound owing
            (ShardedCache.put_wrote sound.sharded id .missing _) trivial gone, trivial⟩
      | clear =>
          exact ⟨⟨.free, now.contents⟩, ⟨rfl, rfl⟩, steps_cleared sound rfl, trivial⟩
      | lookup id =>
          have reads : now.stage.Permits (.cache (.lookup id)) := permits
          have read := steps_reading now sound rfl (fun _id known => known) valid reads
          exact ⟨now, ⟨rfl, rfl, lookup_tells sound permits id⟩, read⟩
      | generation id =>
          have reads : now.stage.Permits (.cache (.generation id)) := permits
          have free : now.stage = .free := permits
          have read := steps_reading ⟨.noted id (system.cache.generation id), now.contents⟩
            sound rfl (fun other _known => by rw [free]; exact fun behind => behind) valid reads
          exact ⟨⟨.noted id (system.cache.generation id), now.contents⟩, ⟨rfl, rfl⟩, read⟩
      | fill id found generation =>
          have reads : now.stage.Permits (.cache (.fill id found generation)) := permits
          obtain ⟨held, loaded, _marked⟩ := permits
          have read := steps_reading ⟨.free, now.contents⟩ sound rfl
            (fun other _known => by rw [loaded]; exact fun behind => behind) valid reads
          exact ⟨⟨.free, now.contents⟩, ⟨rfl, rfl⟩, read⟩
      | invalidate id =>
          have reads : now.stage.Permits (.cache (.invalidate id)) := permits
          have read := steps_reading now sound rfl (fun _id known => known) valid reads
          exact ⟨now, ⟨rfl, rfl⟩, read⟩
      | keepComputed id before after =>
          have reads : now.stage.Permits (.cache (.keepComputed id before after)) := permits
          have read := steps_reading now sound rfl (fun _id known => known) valid reads
          exact ⟨now, ⟨rfl, rfl⟩, read⟩
      | put bundle => exact absurd permits (fun impossible => impossible)

end System

end BundleStore
