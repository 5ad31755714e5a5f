import BundleStore.Proofs.Coherence.System
import BundleStore.Proofs.Storage.Siblings
import BundleStore.Repository.Store

set_option autoImplicit false

/-! What the cache is worth after a repair. A repair that ends well empties the cache. One that fails
leaves it as it was, whatever storage has rewritten until then; the cache is then true exactly where
no record of a cached node is another. Storage whose records are each the one of its node fails
before it has begun or not at all, so nothing that is cached before it goes stale. -/

namespace BundleStore

/-- What the entry says that storage holds. -/
def CacheEntry.record? : CacheEntry → Option Bundle
  | .present bundle => some bundle.record
  | .missing => none

/-- A storage with a cache before it. No call gets to the cache, and what is cleared is the cache. -/
structure Front (σ : Type) where
  serve : Task.Serve σ
  cache : σ → BundleCache
  load : σ → NodeId → Except StorageError (Option Bundle)
  called : ∀ call state, cache (serve (.storage call) state).2 = cache state
  cleared : ∀ state, cache (serve (.cache .clear) state).2 = (cache state).clear

theorem Task.run_warn_all {σ ε α : Type} (serve : Task.Serve σ) (warning : α → Warning)
    (values : List α) (state : σ) :
    ∃ after, (values.forM (fun value => Task.warn (warning value)) : Task ε PUnit).run serve state =
      (.ok (), after) := by
  induction values generalizing state with
  | nil => exact ⟨state, rfl⟩
  | cons value rest ih => exact ih (serve (.warn (warning value)) state).2

theorem BundleCache.held?_clear (cache : BundleCache) (id : NodeId) : cache.clear.held? id = none :=
  ShardedCache.value?_clear cache.entries id

namespace Front

variable {σ : Type} {front : Front σ} {before after : σ} {ids : List NodeId} {recursive : Bool}

/-- Storage that answers its calls in any way whatever. -/
def answering (answer : (call : StorageCall) → σ → Except StorageError call.Result × σ) :
    Front (σ × BundleCache) where
  serve
    | .storage call, (storage, cache) =>
        let (result, storage) := answer call storage
        (result, storage, cache)
    | .cache step, (storage, cache) =>
        let (result, cache) := cache.serve step
        (result, storage, cache)
    | .warn _, state => ((), state)
  cache := Prod.snd
  load state id := (answer (.loadBundle id) state.1).1
  called _ _ := rfl
  cleared _ := rfl

def record (front : Front σ) (state : σ) (id : NodeId) : Except StorageError (Option Bundle) :=
  (front.load state id).map (Option.map Bundle.record)

/-- What is cached of a node is what storage holds. -/
def Coherent (front : Front σ) (state : σ) : Prop :=
  ∀ id entry, (front.cache state).held? id = some entry →
    front.record state id = .ok entry.record?

/-- No record of a cached node is another. -/
def Spares (front : Front σ) (before after : σ) : Prop :=
  ∀ id entry, (front.cache before).held? id = some entry →
    front.record after id = front.record before id

def repair (front : Front σ) (ids : List NodeId) (recursive : Bool) (state : σ) :
    Except RepositoryError (List Problem) × σ :=
  (Repository.check ids recursive true).run front.serve state

/-- Either the cache is empty after a repair, or storage has failed and the cache is as before. -/
theorem repair_ends (front : Front σ) (ids : List NodeId) (recursive : Bool) (before : σ) :
    (∃ problems after, front.repair ids recursive before = (.ok problems, after) ∧
      ∀ id, (front.cache after).held? id = none) ∨
    ∃ cause after,
      front.serve (.storage (.checkConsistency ids recursive true)) before = (.error cause, after) ∧
      front.repair ids recursive before = (.error (.storage cause), after) ∧
      front.cache after = front.cache before := by
  have asked : (Repository.call (.checkConsistency ids recursive true)).run front.serve before =
      ((front.serve (.storage (.checkConsistency ids recursive true)) before).1.mapError
        RepositoryError.storage,
        (front.serve (.storage (.checkConsistency ids recursive true)) before).2) := by
    change ((Task.ofExcept _).mapError RepositoryError.storage).run front.serve _ = _
    cases (front.serve (.storage (.checkConsistency ids recursive true)) before).1 <;> rfl
  have called := front.called (.checkConsistency ids recursive true) before
  rw [repair, Repository.check, Task.run_bind, asked]
  generalize front.serve (.storage (.checkConsistency ids recursive true)) before = served at called ⊢
  obtain ⟨cause | problems, between⟩ := served
  · exact Or.inr ⟨cause, between, rfl, rfl, called⟩
  · obtain ⟨warned, warns⟩ : ∃ after, (problems.forM fun problem =>
        (Task.warn (.inconsistent problem) : Task RepositoryError Unit)).run front.serve between =
          (.ok (), after) := Task.run_warn_all front.serve Warning.inconsistent problems between
    refine Or.inl ⟨problems, (front.serve (.cache .clear) warned).2, ?_, fun id => ?_⟩
    · dsimp only [Except.mapError]
      rw [Task.run_bind, warns]
      rfl
    · rw [front.cleared]
      exact BundleCache.held?_clear _ id

theorem Coherent.failed (coherent : front.Coherent before)
    (same : front.cache after = front.cache before) :
    front.Coherent after ↔ front.Spares before after := by
  constructor
  · intro still id entry held
    rw [coherent id entry held]
    exact still id entry (same ▸ held)
  · intro spares id entry held
    rw [same] at held
    rw [spares id entry held]
    exact coherent id entry held

theorem Coherent.repair_iff (coherent : front.Coherent before) (ids : List NodeId)
    (recursive : Bool) :
    front.Coherent (front.repair ids recursive before).2 ↔
      (∃ problems, (front.repair ids recursive before).1 = .ok problems) ∨
        front.Spares before (front.repair ids recursive before).2 := by
  rcases front.repair_ends ids recursive before with
    ⟨problems, after, ended, empty⟩ | ⟨cause, after, _served, ended, same⟩
  · rw [ended]
    have coherent : front.Coherent after := by
      intro id entry held
      rw [empty id] at held
      cases held
    exact ⟨fun _ => Or.inl ⟨problems, rfl⟩, fun _ => coherent⟩
  · rw [ended, coherent.failed same]
    constructor
    · exact Or.inr
    · rintro (⟨problems, ok⟩ | spares)
      · cases ok
      · exact spares

end Front

/-! ### Sessions -/

namespace Session

variable {session after : Session} {ids : List NodeId} {recursive : Bool}

def front : Front Session where
  serve := serve
  cache := cache
  load session := session.storage.load
  called call session := by
    change (session.recorded call).2.cache = session.cache
    rw [recorded]
    split <;> rfl
  cleared _ := rfl

/-- A repair that does not come through, for a fault or by itself, has changed no record. -/
theorem serve_failed (orderly : session.storage.Orderly) {cause : StorageError}
    (served : serve (.storage (.checkConsistency ids recursive true)) session =
      (.error cause, after)) : after.storage = session.storage := by
  have reaches {asked : Session}
      (answered : asked.direct (.checkConsistency ids recursive true) = (.error cause, after))
      (same : asked.storage = session.storage) : after.storage = session.storage := by
    rw [direct, same] at answered
    rcases given : session.storage.serve (.checkConsistency ids recursive true) with
      ⟨result, storage, warnings⟩
    rw [given] at answered
    cases answered
    obtain ⟨_orderly, _repaired, ⟨problems, ok⟩ | unchanged⟩ := orderly.repair ids recursive given
    · cases ok
    · exact unchanged
  change session.recorded (.checkConsistency ids recursive true) = _ at served
  rw [recorded] at served
  split at served
  · cases served
    rfl
  · exact reaches served rfl
  · exact reaches served rfl

/-- The cache of a session outlasts every repair of records that are each the one of its node. -/
theorem coherent_repair (orderly : session.storage.Orderly) (coherent : front.Coherent session)
    (ids : List NodeId) (recursive : Bool) :
    front.Coherent (session.run (Repository.check ids recursive true)).2 := by
  change front.Coherent (front.repair ids recursive session).2
  rw [coherent.repair_iff]
  rcases front.repair_ends ids recursive session with
    ⟨problems, after, ended, _empty⟩ | ⟨cause, after, served, ended, _same⟩
  · exact Or.inl ⟨problems, by rw [ended]⟩
  · refine Or.inr (fun id _entry _held => ?_)
    rw [ended]
    have same := serve_failed orderly served
    change (after.storage.load id).map _ = (session.storage.load id).map _
    rw [same]

end Session

/-- Whatever answers the calls, a repair leaves the cache true exactly where it ends well or no record
of a cached node is another then. In a session on records that are each the one of its node the
cache stays true, whichever calls are made to fail. -/
theorem coherent_after_repair (ids : List NodeId) (recursive : Bool) :
    (∀ {σ : Type} (answer : (call : StorageCall) → σ → Except StorageError call.Result × σ)
      (before : σ × BundleCache), (Front.answering answer).Coherent before →
        ((Front.answering answer).Coherent
            ((Front.answering answer).repair ids recursive before).2 ↔
          (∃ problems, ((Front.answering answer).repair ids recursive before).1 = .ok problems) ∨
            (Front.answering answer).Spares before
              ((Front.answering answer).repair ids recursive before).2)) ∧
      ∀ session : Session, session.storage.Orderly → Session.front.Coherent session →
        Session.front.Coherent (session.run (Repository.check ids recursive true)).2 :=
  ⟨fun _answer _before coherent => coherent.repair_iff ids recursive,
    fun _session orderly coherent => Session.coherent_repair orderly coherent ids recursive⟩

/-! ### A misfiled record -/

theorem ShardedCache.slot_of_value? {κ α : Type} [DecidableEq κ] {cache : ShardedCache κ α}
    {key : κ} {value : α} (held : cache.value? key = some value) :
    ∃ shard ∈ cache.shards, ∃ slot ∈ shard.slots, slot.key = key ∧ slot.value = value := by
  rw [value?, Option.map_eq_some_iff] at held
  obtain ⟨slot, found, same⟩ := held
  have keyed := slot?_eq_some_key found
  rw [slot?, shardOf] at found
  cases there : cache.shards[cache.home key]? with
  | none =>
      rw [there] at found
      cases found
  | some shard =>
      rw [there] at found
      exact ⟨shard, List.mem_of_getElem? there, slot, List.mem_of_find?_eq_some found, keyed, same⟩

namespace Front

variable {σ : Type} {front : Front σ} {state : σ}

/-- Goes through all that is cached. -/
def verify (front : Front σ) (state : σ) : Bool :=
  (front.cache state).entries.shards.all (fun shard =>
    shard.slots.all (fun slot => front.record state slot.key = .ok slot.value.record?))

theorem coherent_of_verify (verified : front.verify state = true) : front.Coherent state := by
  intro id entry held
  obtain ⟨shard, inside, slot, listed, rfl, rfl⟩ := ShardedCache.slot_of_value? held
  have each := List.all_eq_true.mp (List.all_eq_true.mp verified shard inside) slot listed
  exact of_decide_eq_true each

end Front

namespace Misfiled

def settings : Settings := { cacheMegabytes := 1, blobThreshold := 2, cacheShards := 1 }

/-- The session on this storage, after the node has been loaded. -/
def loaded? (storage : Storage) (id : NodeId) : Option Session :=
  (Session.start settings storage).toOption.map (fun session =>
    (session.run (Repository.loadNode id)).2)

/-- The book of two chapters is loaded, and then all checks are made to fail. -/
def failing? : Option Session :=
  (loaded? (Chapters.shelf Chapters.second) NodeId.zero).map (·.failAfter "check_consistency" 0)

def memory? (session : Session) : Option MemoryStorage :=
  match session.storage with
  | .memory contents => some contents
  | _ => none

theorem storage_of_memory? {session : Session} {contents : MemoryStorage}
    (found : memory? session = some contents) : session.storage = .memory contents := by
  unfold memory? at found
  split at found
  · rename_i same
    cases found
    exact same
  · cases found

set_option maxRecDepth 2500 in
/-- The book is still cached as it is in storage. -/
theorem book_coherent : ∃ session, failing? = some session ∧
    (session.run (Repository.check [] true true)).1 =
      .error (.storage (.injected "check_consistency")) ∧
    Session.front.Coherent (session.run (Repository.check [] true true)).2 := by
  have ran : failing?.map (fun session =>
      (memory? session, Session.front.verify session,
        (session.run (Repository.check [] true true)).1)) =
      some (some (.holding (Chapters.bundles Chapters.second)), true,
        .error (.storage (.injected "check_consistency"))) := by
    decide +kernel
  obtain ⟨session, given, checked⟩ := Option.map_eq_some_iff.mp ran
  obtain ⟨same, verified⟩ := Prod.mk.inj checked
  obtain ⟨verified, failed⟩ := Prod.mk.inj verified
  have orderly : session.storage.Orderly := by
    rw [storage_of_memory? same]
    exact Chapters.shelf_orderly Chapters.second
  exact ⟨session, given, failed, (coherent_after_repair [] true).2 session orderly
    (Front.coherent_of_verify verified)⟩

/-! The record of one node lies in the place of another one's, and a folder lies in its own place.
A repair that comes to the record tries to write it where it belongs. -/

def root : Location := Location.ofText [] "/archive"

def host : NodeId := Chapters.first

def wanderer : NodeId := Chapters.second

def lost : NodeId := ⟨List.replicate 15 0 ++ [3], rfl⟩

def bereft (id : NodeId) : Node :=
  (Node.fresh id Name.unstructured none).addChild ⟨"", "lost"⟩ lost

def opened? (tree : FileTree) : Option FileStorage :=
  (FileStorage.openRoot root Interner.namespaces tree).1.toOption

def misfiled? : Option FileTree := do
  let bare ← opened? FileTree.empty
  let storage := (bare.storeBundle (Bundle.ofNode (bereft NodeId.zero))).2
  let bytes ← (Record.encode Record.bundle (Bundle.ofNode (bereft wanderer))).toOption
  let tree := (storage.tree.write (storage.bundlePath host) bytes).2
  return (tree.makeFolders (storage.bundlePath wanderer)).2

def started? (storage : FileStorage) : Option Session :=
  (Session.start settings (.files storage)).toOption

theorem ok_of_toOption {ε α : Type} {result : Except ε α} {value : α}
    (found : result.toOption = some value) : result = .ok value := by
  cases result with
  | error cause => cases found
  | ok given =>
      cases found
      rfl

/-- The entries of the first node, in the cache and in storage. -/
def entries (session : Session) :
    Option (Option (List Child)) × Except StorageError (Option (List Child)) :=
  (((session.cache.held? NodeId.zero).map CacheEntry.record?).map (Option.map Bundle.children),
    (Session.front.record session NodeId.zero).map (Option.map Bundle.children))

theorem entries_of_coherent {session : Session} (coherent : Session.front.Coherent session)
    {children : Option (List Child)} (held : (entries session).1 = some children) :
    (entries session).2 = .ok children := by
  obtain ⟨record, there, same⟩ := Option.map_eq_some_iff.mp held
  obtain ⟨entry, cached, rfl⟩ := Option.map_eq_some_iff.mp there
  rw [entries, coherent NodeId.zero entry cached]
  exact congrArg Except.ok same

set_option maxRecDepth 2500 in
theorem bereft_stale :
    ¬ ∀ (root : Location) (tree : FileTree) (storage : FileStorage) (settings : Settings)
      (session : Session) (id : NodeId) (ids : List NodeId) (recursive : Bool),
      (FileStorage.openRoot root Interner.namespaces tree).1 = .ok storage →
      Session.start settings (.files storage) = .ok session →
      Session.front.Coherent (session.run (Repository.loadNode id)).2 →
      Session.front.Coherent
        ((session.run (Repository.loadNode id)).2.run (Repository.check ids recursive true)).2 := by
  intro claimed
  let before (session : Session) : Session := (session.run (Repository.loadNode NodeId.zero)).2
  let after (session : Session) : Session :=
    ((before session).run (Repository.check [host, NodeId.zero] false true)).2
  have ran : (do
      let tree ← misfiled?
      let storage ← opened? tree
      let session ← started? storage
      return (Session.front.verify (before session), entries (after session))) =
        some (true, some (some [⟨⟨"", "lost"⟩, lost, 1⟩]), .ok (some [])) := by
    decide +kernel
  obtain ⟨tree, _misfiled, ran⟩ := Option.bind_eq_some_iff.mp ran
  obtain ⟨storage, opened, ran⟩ := Option.bind_eq_some_iff.mp ran
  obtain ⟨session, started, ran⟩ := Option.bind_eq_some_iff.mp ran
  obtain ⟨verified, ends⟩ := Prod.mk.inj (Option.some.inj ran)
  have stale := claimed root tree storage settings session NodeId.zero [host, NodeId.zero] false
    (ok_of_toOption opened) (ok_of_toOption started)
    (Front.coherent_of_verify verified)
  have same := entries_of_coherent stale (congrArg Prod.fst ends)
  rw [show entries _ = _ from ends] at same
  cases same

end Misfiled

end BundleStore
