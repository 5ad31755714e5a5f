import BundleStore.Cache.Bundles
import BundleStore.Proofs.Cache.Values
import BundleStore.Proofs.Coherence.Discipline

set_option autoImplicit false

/-! A backend behind a cache, and what one action by a disciplined task does to the two. The cache
is true of every node that the writer is not behind with; what a reader has loaded is what
storage holds as long as the write count stands where the reader noted it. -/

namespace BundleStore

/-- A backend at work behind a cache. -/
structure System (backend : Backend) where
  storage : backend.State
  cache : BundleCache

namespace System

variable {backend : Backend}

def serve : Task.Serve (System backend)
  | .storage call, system =>
      let (result, storage) := backend.serve call system.storage
      (result, { system with storage })
  | .cache step, system =>
      let (result, cache) := system.cache.serve step
      (result, { system with cache })
  | .warn _, system => ((), system)

def contents (system : System backend) : Contents := backend.contents system.storage

end System

namespace BundleCache

def held? (cache : BundleCache) (id : NodeId) : Option CacheEntry := cache.entries.value? id

def generation (cache : BundleCache) (id : NodeId) : Nat := cache.entries.generation id

end BundleCache

namespace CacheEntry

/-- The entry may be kept for the node. -/
def Filed (id : NodeId) : CacheEntry → Prop
  | .present bundle => bundle.id = id ∧ bundle.Ready
  | .missing => True

def Tells : CacheEntry → Option Bundle → Prop
  | .present bundle, record => record = some bundle.record
  | .missing, record => record = none

end CacheEntry

/-- What the steps of others depend on: the write counts, the records, and where the cache is
behind. -/
structure Scene where
  generation : NodeId → Nat
  bundles : NodeId → Option Bundle
  behind : NodeId → Prop

namespace Scene

/-- Counts only grow, and where a count stands still nothing has happened that the cache does not
know. -/
structure Follows (after before : Scene) : Prop where
  generation : ∀ id, before.generation id ≤ after.generation id
  still : ∀ id, after.generation id = before.generation id → ¬ after.behind id →
    ¬ before.behind id ∧ after.bundles id = before.bundles id

end Scene

namespace Stage

/-- What a task has noted or loaded is not ahead of the system, and what it has loaded is still
true if the count stands where it was noted. -/
def Valid (scene : Scene) : Stage → Prop
  | .noted id generation => generation ≤ scene.generation id
  | .loaded id generation found =>
      generation ≤ scene.generation id ∧
      (∀ bundle, found = some bundle → bundle.id = id ∧ bundle.record = bundle) ∧
      (scene.generation id = generation → ¬ scene.behind id → found = scene.bundles id)
  | _ => True

theorem Valid.follows {stage : Stage} {before after : Scene} (valid : stage.Valid before)
    (follows : after.Follows before) : stage.Valid after := by
  cases stage with
  | free => trivial
  | owing id => trivial
  | adrift => trivial
  | noted id generation => exact Nat.le_trans valid (follows.generation id)
  | loaded id generation found =>
      obtain ⟨notAhead, sound, current⟩ := valid
      refine ⟨Nat.le_trans notAhead (follows.generation id), sound, fun same known => ?_⟩
      have earlier := follows.generation id
      have stood : before.generation id = generation := by omega
      have still := follows.still id (by omega) known
      exact (current stood still.1).trans still.2.symm

end Stage

namespace System

variable {backend : Backend} {system : System backend} {now next : Moment}

def scene (system : System backend) (now : Moment) : Scene :=
  ⟨system.cache.generation, now.contents.bundles, now.stage.Behind⟩

/-- The moment says what the storage holds, and the cache is true of every node that it should
know of. -/
structure Sound (system : System backend) (now : Moment) : Prop where
  contents : system.contents = now.contents
  sharded : 0 < system.cache.entries.shards.length
  filed : ∀ {id entry}, system.cache.held? id = some entry → entry.Filed id
  tells : ∀ {id entry}, system.cache.held? id = some entry → ¬ now.stage.Behind id →
    entry.Tells (now.contents.bundles id)

/-- One step of anyone: the system stays sound, and all others may rely on what they know. -/
structure Steps (before after : System backend) (now next : Moment) : Prop where
  sound : after.Sound next
  follows : (after.scene next).Follows (before.scene now)

/-! ### Storage calls -/

/-- A call to storage leaves the cache alone; where it changes records the cache is behind. -/
theorem steps_storage (sound : system.Sound now) {storage : backend.State}
    (contents : backend.contents storage = next.contents)
    (known : ∀ id, ¬ next.stage.Behind id →
      ¬ now.stage.Behind id ∧ next.contents.bundles id = now.contents.bundles id) :
    Steps system { system with storage } now next := by
  refine ⟨⟨contents, sound.sharded, sound.filed, ?_⟩, ⟨fun id => Nat.le_refl _, ?_⟩⟩
  · intro id entry held nowKnown
    rw [(known id nowKnown).2]
    exact sound.tells held (known id nowKnown).1
  · intro id _same nowKnown
    exact known id nowKnown

/-! ### Cache steps -/

section

variable {cache : BundleCache}

/-- The cache has answered, or has kept a computed state: no entry is about another record. -/
theorem steps_quiet (sound : system.Sound now) (same : next.contents = now.contents)
    (known : ∀ id, ¬ next.stage.Behind id → ¬ now.stage.Behind id)
    (alike : ShardedCache.Alike cache.entries system.cache.entries)
    (counts : ∀ id, cache.generation id = system.cache.generation id)
    (entries : ∀ id entry, cache.held? id = some entry → ∃ before,
      system.cache.held? id = some before ∧ (before.Filed id → entry.Filed id) ∧
      ∀ record, before.Tells record → entry.Tells record) :
    Steps system { system with cache } now next := by
  refine ⟨⟨sound.contents.trans same.symm, ?_, ?_, ?_⟩, ⟨fun id => ?_, ?_⟩⟩
  · rw [alike.length]
    exact sound.sharded
  · intro id entry held
    obtain ⟨before, seen, filed, _tells⟩ := entries id entry held
    exact filed (sound.filed seen)
  · intro id entry held nowKnown
    obtain ⟨before, seen, _filed, tells⟩ := entries id entry held
    rw [same]
    exact tells _ (sound.tells seen (known id nowKnown))
  · exact Nat.le_of_eq (counts id).symm
  · intro id _still nowKnown
    constructor
    · exact known id nowKnown
    · change next.contents.bundles id = now.contents.bundles id
      rw [same]

/-- A write to the cache that says what storage holds makes up for what the node was behind. -/
theorem steps_wrote (sound : system.Sound now) (same : next.contents = now.contents)
    {id : NodeId} {news : Option CacheEntry}
    (known : ∀ other, other ≠ id → ¬ next.stage.Behind other → ¬ now.stage.Behind other)
    (wrote : ShardedCache.Wrote cache.entries system.cache.entries id news)
    (tells : ∀ entry, news = some entry →
      entry.Filed id ∧ entry.Tells (now.contents.bundles id)) :
    Steps system { system with cache } now next := by
  refine ⟨⟨sound.contents.trans same.symm, ?_, ?_, ?_⟩, ⟨fun other => ?_, ?_⟩⟩
  · rw [wrote.length]
    exact sound.sharded
  · intro other entry held
    have either := wrote.value? held
    split at either
    · rename_i asked
      rw [asked]
      exact (tells entry either).1
    · exact sound.filed either
  · intro other entry held nowKnown
    rw [same]
    have either := wrote.value? held
    split at either
    · rename_i asked
      rw [asked]
      exact (tells entry either).2
    · rename_i differs
      exact sound.tells either (known other differs nowKnown)
  · change system.cache.entries.generation other ≤ cache.entries.generation other
    rw [wrote.generation]
    split <;> omega
  · intro other still nowKnown
    have counted := wrote.generation other
    change cache.entries.generation other = system.cache.entries.generation other at still
    have away : system.cache.entries.home other ≠ system.cache.entries.home id := by
      intro sameHome
      rw [if_pos sameHome] at counted
      omega
    have differs : other ≠ id := fun asked => away (congrArg _ asked)
    constructor
    · exact known other differs nowKnown
    · change next.contents.bundles other = now.contents.bundles other
      rw [same]

theorem steps_cleared (sound : system.Sound now) (same : next.contents = now.contents) :
    Steps system { system with cache := system.cache.clear } now next := by
  have counted (id : NodeId) :
      system.cache.clear.generation id = system.cache.generation id + 1 :=
    ShardedCache.generation_clear sound.sharded id
  have gone (id : NodeId) : system.cache.clear.held? id = none :=
    ShardedCache.value?_clear system.cache.entries id
  refine ⟨⟨sound.contents.trans same.symm, ?_, ?_, ?_⟩, ⟨fun id => ?_, ?_⟩⟩
  · exact (ShardedCache.clear_alike system.cache.entries).length ▸ sound.sharded
  · intro id entry held
    rw [gone] at held
    cases held
  · intro id entry held
    rw [gone] at held
    cases held
  · change system.cache.generation id ≤ system.cache.clear.generation id
    rw [counted]
    omega
  · intro id still
    change system.cache.clear.generation id = system.cache.generation id at still
    rw [counted] at still
    omega

theorem steps_filled (sound : system.Sound now) (same : next.contents = now.contents)
    (known : ∀ id, ¬ next.stage.Behind id → ¬ now.stage.Behind id)
    {id : NodeId} {noted : Nat} {found : Option Bundle}
    (valid : (Stage.loaded id noted found).Valid (system.scene now)) :
    Steps system
      { system with cache := (system.cache.fill id (found.map Bundle.markOld) noted).2 }
      now next := by
  obtain ⟨_notAhead, loaded, current⟩ := valid
  have marked : found.map Bundle.markOld = found := by
    cases found with
    | none => rfl
    | some bundle => exact congrArg some (Bundle.markOld_of_record (loaded bundle rfl).2)
  rw [marked]
  have filled := ShardedCache.fill_filled sound.sharded id (CacheEntry.ofLoaded found)
    (CacheEntry.ofLoaded found).weight noted
  refine ⟨⟨sound.contents.trans same.symm, ?_, ?_, ?_⟩, ⟨fun other => ?_, ?_⟩⟩
  · exact filled.length ▸ sound.sharded
  · intro other entry held
    rcases filled.value? held with ⟨asked, entered, _stood⟩ | kept
    · rw [asked, entered]
      cases found with
      | none => trivial
      | some bundle =>
          obtain ⟨named, recorded⟩ := loaded bundle rfl
          exact ⟨named, Bundle.ready_of_record recorded⟩
    · exact sound.filed kept
  · intro other entry held nowKnown
    rw [same]
    rcases filled.value? held with ⟨asked, entered, stood⟩ | kept
    · have before : ¬ now.stage.Behind id := known id (asked ▸ nowKnown)
      have fresh : found = now.contents.bundles id := current stood before
      rw [asked, entered, ← fresh]
      cases found with
      | none => rfl
      | some bundle => exact congrArg some (loaded bundle rfl).2.symm
    · exact sound.tells kept (known other nowKnown)
  · exact Nat.le_of_eq (filled.generation other).symm
  · intro other _still nowKnown
    constructor
    · exact known other nowKnown
    · change next.contents.bundles other = now.contents.bundles other
      rw [same]

end

end System

end BundleStore
