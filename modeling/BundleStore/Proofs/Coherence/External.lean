import BundleStore.Proofs.Coherence.Economy
import BundleStore.Proofs.Store.Remains

set_option autoImplicit false

/-! Changes that were made elsewhere. The cache forgets the nodes that the changes concern, and
nothing else: all other entries stay as they are and where they are in the order of leaving. Storage
is not called. A read of a bundle is under way from when it has noted the write count; one that is under
way when such a node is forgotten comes too late with what it brings, however long it takes. A reader
that has yet to note the count also has yet to load the bundle. -/

namespace BundleStore

/-! ### What a reader has noted -/

namespace Stage

/-- The count that is noted, and of which node. -/
def count? : Stage → Option (NodeId × Nat)
  | .noted id generation => some (id, generation)
  | .loaded id generation _ => some (id, generation)
  | _ => none

variable {stage : Stage} {action : Action} {counted : NodeId × Nat}

theorem Valid.count {scene : Scene} (valid : stage.Valid scene) {id : NodeId} {generation : Nat}
    (noted : stage.count? = some (id, generation)) : generation ≤ scene.generation id := by
  cases stage with
  | noted other count =>
      cases noted
      exact valid
  | loaded other count found =>
      cases noted
      exact valid.1
  | free => cases noted
  | owing other => cases noted
  | adrift => cases noted

/-- Only noting a count makes one known. -/
theorem count_of_after (permits : stage.Permits action)
    (unnoted : ∀ id, action ≠ .cache (.generation id)) {result : action.Result}
    (noted : (stage.after action result).count? = some counted) : stage.count? = some counted := by
  cases action with
  | warn warning => exact noted
  | cache step =>
      cases step with
      | generation id => exact absurd rfl (unnoted id)
      | fill id found generation => cases noted
      | clear => cases noted
      | refresh bundle => cases noted
      | putMissing id => cases noted
      | _ => exact noted
  | storage call =>
      cases call with
      | loadBundle id =>
          obtain ⟨generation, rfl⟩ := permits
          cases result with
          | ok found => exact noted
          | error error => exact noted
      | loadReferences target => exact noted
      | getBlob blob => exact noted
      | _ => exact absurd permits id

end Stage

namespace Task

variable {ε α : Type}

/-- The task may yet hand in something for the node under a count that it has noted. -/
inductive MayFill (id : NodeId) (generation : Nat) : Task ε α → Prop where
  | fill (found : Option Bundle) (rest : Bool → Task ε α) :
      MayFill id generation (act (.cache (.fill id found generation)) rest)
  | later {action : Action} {rest : action.Result → Task ε α} (result : action.Result)
      (unnoted : ∀ other, action ≠ .cache (.generation other))
      (fills : MayFill id generation (rest result)) : MayFill id generation (act action rest)

theorem MayFill.noted {id : NodeId} {generation : Nat} {task : Task ε α}
    (fills : task.MayFill id generation) {ends : α → Stage → Prop} {fails : ε → Stage → Prop}
    {stage : Stage} (meets : task.Meets reading ends fails stage) :
    stage.count? = some (id, generation) := by
  induction fills generalizing stage with
  | fill found rest =>
      obtain ⟨⟨held, loaded, _marked⟩, _met⟩ := meets
      rw [loaded]
      rfl
  | later result unnoted _fills ih =>
      obtain ⟨permits, met⟩ := meets
      exact Stage.count_of_after permits unnoted (ih (met result))

end Task

/-! ### Counts at all later times -/

namespace BundleCache

variable {cache : BundleCache}

/-- There are shards, and the write count of the node has come to at least this. -/
def Counts (id : NodeId) (generation : Nat) (cache : BundleCache) : Prop :=
  0 < cache.entries.shards.length ∧ generation ≤ cache.generation id

theorem Counts.of_wrote {id other : NodeId} {generation : Nat} {news : Option CacheEntry}
    {entries : ShardedCache NodeId CacheEntry} (counts : cache.Counts id generation)
    (wrote : ShardedCache.Wrote entries cache.entries other news) :
    Counts id generation ⟨entries⟩ := by
  refine ⟨wrote.length ▸ counts.1, ?_⟩
  have counted := wrote.generation id
  have before : generation ≤ cache.entries.generation id := counts.2
  change generation ≤ entries.generation id
  rw [counted]
  split <;> omega

theorem Counts.serve {id : NodeId} {generation : Nat} (counts : cache.Counts id generation)
    (step : CacheStep) : Counts id generation (cache.serve step).2 := by
  obtain ⟨sharded, counted⟩ := counts
  have same {entries : ShardedCache NodeId CacheEntry}
      (alike : ShardedCache.Alike entries cache.entries)
      (kept : entries.generation id = cache.entries.generation id) :
      Counts id generation ⟨entries⟩ :=
    ⟨alike.length ▸ sharded, Nat.le_trans counted (Nat.le_of_eq kept.symm)⟩
  cases step with
  | lookup other =>
      change Counts id generation (cache.lookup other).2
      rw [Counts, BundleCache.generation, entries_lookup]
      exact same (ShardedCache.get_alike ..) (ShardedCache.generation_get sharded other id)
  | generation other => exact ⟨sharded, counted⟩
  | fill other found noted =>
      have filled := ShardedCache.fill_filled sharded other (CacheEntry.ofLoaded found)
        (CacheEntry.ofLoaded found).weight noted
      exact same filled.toAlike (filled.generation id)
  | put bundle => exact Counts.of_wrote ⟨sharded, counted⟩ (ShardedCache.put_wrote sharded ..)
  | refresh bundle =>
      exact Counts.of_wrote ⟨sharded, counted⟩ (ShardedCache.replace_wrote sharded ..)
  | putMissing other => exact Counts.of_wrote ⟨sharded, counted⟩ (ShardedCache.put_wrote sharded ..)
  | invalidate other => exact Counts.of_wrote ⟨sharded, counted⟩ (ShardedCache.remove_wrote sharded _)
  | clear =>
      refine ⟨(ShardedCache.clear_alike cache.entries).length ▸ sharded, ?_⟩
      change generation ≤ cache.entries.clear.generation id
      rw [ShardedCache.generation_clear sharded]
      exact Nat.le_succ_of_le counted
  | keepComputed other before after =>
      change Counts id generation (cache.keepComputed other before after)
      rw [Counts, BundleCache.generation, entries_keepComputed]
      exact same (ShardedCache.amend_alike ..) (ShardedCache.generation_amend sharded ..)

/-- What is brought under a lower count is not kept. -/
theorem fill_late {id : NodeId} {generation : Nat} (late : generation < cache.generation id)
    (found : Option Bundle) : cache.fill id found generation = (false, cache) := by
  have differs : cache.entries.generation id ≠ generation := Nat.ne_of_gt late
  rw [fill, ShardedCache.fill, if_pos differs]

end BundleCache

theorem System.serve_counts {backend : Backend} {id : NodeId} {generation : Nat} (action : Action)
    (system : System backend) (counts : system.cache.Counts id generation) :
    (serve action system).2.cache.Counts id generation := by
  cases action with
  | storage call => exact counts
  | cache step => exact counts.serve step
  | warn warning => exact counts

/-! ### Forgetting -/

namespace BundleCache

variable {cache : BundleCache} {gone : List NodeId}

def forget (gone : List NodeId) (cache : BundleCache) : BundleCache := gone.foldl invalidate cache

/-- Some nodes are not cached any longer, and that is all. -/
structure Forgets (before : BundleCache) (gone : List NodeId) (after : BundleCache) : Prop where
  absent : ∀ id ∈ gone, after.contains id = false
  others : ∀ id, id ∉ gone → after.entries.slot? id = before.entries.slot? id
  queue : after.entries.queue = before.entries.queue.filter (·.key ∉ gone)
  used : after.entries.used = UInt64.ofNat (ShardedCache.load after.entries.queue)

theorem forget_queue (orderly : cache.entries.Orderly) (gone : List NodeId) :
    (cache.forget gone).entries.Orderly ∧
      (cache.forget gone).entries.queue = cache.entries.queue.filter (·.key ∉ gone) := by
  induction gone generalizing cache with
  | nil => exact ⟨orderly, (List.filter_eq_self.mpr (fun _slot _member => by simp)).symm⟩
  | cons id rest ih =>
      obtain ⟨still, left⟩ := @ih (cache.invalidate id) (orderly.remove id)
      refine ⟨still, left.trans ?_⟩
      change (cache.entries.remove id).2.queue.filter _ = _
      rw [orderly.queue_remove, List.filter_filter]
      congr 1
      funext slot
      simp [Bool.and_comm]

theorem forget_forgets (orderly : cache.entries.Orderly) (gone : List NodeId) :
    cache.Forgets gone (cache.forget gone) := by
  obtain ⟨still, left⟩ := forget_queue orderly gone
  refine {
    absent := fun id member => ?_
    others := fun id stays => ?_
    queue := left
    used := still.ordered_queue.used }
  · have nowhere : (cache.forget gone).entries.slot? id = none := by
      rw [still.slot?_queue, left, List.find?_eq_none]
      intro slot kept
      have stayed := of_decide_eq_true (List.mem_filter.mp kept).2
      have differs : slot.key ≠ id := fun same => stayed (same ▸ member)
      simpa using differs
    rw [contains, ShardedCache.contains, nowhere]
    rfl
  · rw [still.slot?_queue, left, orderly.slot?_queue, List.find?_filter]
    congr 1
    funext slot
    by_cases same : slot.key = id
    · simp [same, stays]
    · simp [same]

theorem Forgets.congr {after : BundleCache} {other : List NodeId} (forgets : cache.Forgets gone after)
    (same : ∀ id, id ∈ other ↔ id ∈ gone) : cache.Forgets other after := by
  refine {
    absent := fun id member => forgets.absent id ((same id).mp member)
    others := fun id stays => forgets.others id (fun member => stays ((same id).mpr member))
    queue := ?_
    used := forgets.used }
  rw [forgets.queue]
  congr 1
  funext slot
  rw [decide_not, decide_not, decide_eq_decide.mpr (same slot.key)]

/-- For every node that is forgotten a write is counted. -/
theorem Counts.forget {id : NodeId} {generation : Nat} (counts : cache.Counts id generation)
    (gone : List NodeId) :
    (cache.forget gone).Counts id generation ∧
      (id ∈ gone → (cache.forget gone).Counts id (generation + 1)) := by
  induction gone generalizing cache generation with
  | nil => exact ⟨counts, fun impossible => nomatch impossible⟩
  | cons head rest ih =>
      have next := counts.serve (.invalidate head)
      refine ⟨(ih next).1, fun member => ?_⟩
      rcases List.mem_cons.mp member with rfl | later
      · have counted := (ShardedCache.remove_wrote counts.1 id).generation id
        rw [if_pos rfl] at counted
        have up : (cache.invalidate id).Counts id (generation + 1) :=
          ⟨next.1, Nat.le_trans (Nat.succ_le_succ counts.2) (Nat.le_of_eq counted.symm)⟩
        exact (ih up).1
      · exact (ih next).2 later

end BundleCache

/-! ### External updates -/

/-- The nodes whose bundles have the items of a log, in the order of the log. -/
def ChangeLog.concerned (log : ChangeLog) : List NodeId := log.items.map Item.bundleId

variable {backend : Backend}

theorem Task.forM_invalidate (gone : List NodeId) (system : System backend) :
    (gone.forM (fun id => Task.cache (.invalidate id)) : Task RepositoryError Unit).run System.serve
        system = (.ok (), { system with cache := system.cache.forget gone }) ∧
      (gone.forM (fun id => Task.cache (.invalidate id)) : Task RepositoryError Unit).calls
        System.serve system = [] := by
  induction gone generalizing system with
  | nil => exact ⟨rfl, rfl⟩
  | cons id rest ih => exact ih { system with cache := system.cache.invalidate id }

namespace Traffic

variable {threshold : Nat} {traffic : Traffic backend}

/-- Storage is not called, and the cache forgets just the nodes whose bundles have the items. A read
has begun once it has noted the count: what is brought for one of the nodes under a count that had
been noted is refused at all later times, and that is all that the reads that have begun can bring.
Nothing is said of a reader that has looked a node up and is yet to note the count. It notes the
count first and loads the bundle after that, so what it brings may still fill the cache. -/
theorem externalUpdate_forgets {start : System backend} (reachable : start.Reachable)
    (reaches : Reaches threshold (idle start) traffic) (log : ChangeLog) :
    ∃ cache,
      (Repository.externalUpdate log).run System.serve traffic.system =
        (.ok (), { traffic.system with cache }) ∧
      (Repository.externalUpdate log).calls System.serve traffic.system = [] ∧
      traffic.system.cache.Forgets log.concerned cache ∧
      ∀ id ∈ log.concerned,
        (∀ reader ∈ traffic.readers, ∀ generation, reader.MayFill id generation →
          generation ≤ traffic.system.cache.generation id) ∧
        ∀ generation ≤ traffic.system.cache.generation id, ∀ later,
          Reaches threshold { traffic with system := { traffic.system with cache } } later →
            ∀ found, later.system.cache.fill id found generation = (false, later.system.cache) := by
  have orderly : traffic.system.cache.entries.Orderly :=
    reaches_keeps System.serve_orderly reaches reachable.orderly
  have listed (id : NodeId) : id ∈ log.concerned ↔ id ∈ Repository.touched log :=
    List.mem_eraseDups.symm
  obtain ⟨ran, uncalled⟩ := Task.forM_invalidate (Repository.touched log) traffic.system
  refine ⟨_, ran, uncalled,
    (BundleCache.forget_forgets orderly (Repository.touched log)).congr listed, ?_⟩
  obtain ⟨now, kept⟩ := reaches_kept backend.failsOnly_any (System.writes_proper Faults.any _) reaches
    (idle_kept reachable.atRest.1 rfl reachable.atRest.2)
  intro id concerned
  constructor
  · intro reader member generation fills
    obtain ⟨stage, valid, meets⟩ := kept.reading reader member
    exact valid.count (fills.noted meets)
  · intro generation noted later onwards found
    have counts : traffic.system.cache.Counts id generation := ⟨kept.sound.sharded, noted⟩
    have counted := (counts.forget (Repository.touched log)).2 ((listed id).mp concerned)
    have still : later.system.cache.Counts id (generation + 1) :=
      reaches_keeps System.serve_counts onwards counted
    exact BundleCache.fill_late still.2 found

def vacant : System MemoryStorage.backend :=
  System.fresh ⟨MemoryStorage.empty, MemoryStorage.empty_sound⟩ 100000 1 (fun _ => 0)

theorem vacant_reachable : vacant.Reachable :=
  System.Reachable.empty ⟨fun _id => rfl, fun _target => rfl, fun _blob => rfl⟩ 100000 1 (fun _ => 0)

/-- One node has been looked for, and another one is just about to be. -/
def waiting : Traffic MemoryStorage.backend :=
  play 0
    [.request (.loadNode BundleCache.page), .read 0, .read 0, .read 0, .read 0,
      .request (.loadNode NodeId.zero), .read 0, .read 0]
    (idle vacant)

def news : ChangeLog :=
  { ChangeLog.empty with modified := [.node (Node.fresh NodeId.zero Name.unstructured none)] }

theorem waiting_comes_late : ∃ cache,
    (Repository.externalUpdate news).run System.serve waiting.system =
      (.ok (), { waiting.system with cache }) ∧
    cache.contains BundleCache.page = true ∧
    ∃ reader ∈ waiting.readers, reader.MayFill NodeId.zero 0 ∧
      ∀ found, cache.fill NodeId.zero found 0 = (false, cache) := by
  obtain ⟨cache, ran, _uncalled, forgets, late⟩ :=
    externalUpdate_forgets vacant_reachable (play_reaches Reaches.start _) news
  obtain ⟨noted, refused⟩ := late NodeId.zero (by decide)
  have fills : Task.MayFill NodeId.zero 0 (waiting.readers.head (by decide +kernel)) :=
    .later (.ok none) (fun _other same => nomatch same) (.fill none _)
  refine ⟨cache, ran, ?_, _, List.head_mem _, fills,
    refused 0 (noted _ (List.head_mem _) 0 fills) _ Reaches.start⟩
  have stays := forgets.others BundleCache.page (by decide)
  rw [BundleCache.contains, ShardedCache.contains, stays]
  decide +kernel

end Traffic

end BundleStore
