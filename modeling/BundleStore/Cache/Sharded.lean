set_option autoImplicit false

/-! A cache bounded by the total weight of its entries. Keys are spread over shards; each shard
keeps its own entries from the most to the least recently used one, and every use is stamped by
one clock, so that the least recent entry of all is the oldest last entry of a shard. Entries go,
oldest first, while the charged weight is above the budget.

A shard counts the writes to it. A reader that brings a value from slower storage notes the count
first, and its value is kept only if no write came in between. -/

namespace BundleStore

structure Slot (κ α : Type) where
  key : κ
  value : α
  weight : UInt64
  stamp : Nat

structure Shard (κ α : Type) where
  /-- The most recently used slot comes first. -/
  slots : List (Slot κ α)
  generation : Nat

namespace Shard

variable {κ α : Type} [DecidableEq κ]

def empty : Shard κ α := ⟨[], 0⟩

def slot? (shard : Shard κ α) (key : κ) : Option (Slot κ α) := shard.slots.find? (·.key = key)

def without (shard : Shard κ α) (key : κ) : Shard κ α :=
  { shard with slots := shard.slots.filter (·.key ≠ key) }

def bringForward (shard : Shard κ α) (slot : Slot κ α) : Shard κ α :=
  { shard with slots := slot :: shard.slots.filter (·.key ≠ slot.key) }

def written (shard : Shard κ α) : Shard κ α := { shard with generation := shard.generation + 1 }

def weight (shard : Shard κ α) : UInt64 :=
  shard.slots.foldr (fun slot sum => slot.weight + sum) 0

end Shard

structure ShardedCache (κ α : Type) where
  shards : List (Shard κ α)
  /-- Spreads the keys; the remainder by the number of shards counts. -/
  spread : κ → Nat
  budget : UInt64
  used : UInt64
  clock : Nat
  hits : Nat
  misses : Nat
  evictions : Nat

namespace ShardedCache

variable {κ α : Type} [DecidableEq κ]

def defaultShards : Nat := 16

/-- There is always at least one shard. -/
def new (budget : UInt64) (shards : Nat) (spread : κ → Nat) : ShardedCache κ α :=
  { shards := List.replicate (max shards 1) Shard.empty
    spread, budget
    used := 0
    clock := 0
    hits := 0
    misses := 0
    evictions := 0 }

def home (cache : ShardedCache κ α) (key : κ) : Nat := cache.spread key % cache.shards.length

def shardOf (cache : ShardedCache κ α) (key : κ) : Shard κ α :=
  cache.shards[cache.home key]?.getD Shard.empty

def onShard (cache : ShardedCache κ α) (key : κ) (change : Shard κ α → Shard κ α) :
    ShardedCache κ α :=
  { cache with shards := cache.shards.modify (cache.home key) change }

def slot? (cache : ShardedCache κ α) (key : κ) : Option (Slot κ α) := (cache.shardOf key).slot? key

def contains (cache : ShardedCache κ α) (key : κ) : Bool := (cache.slot? key).isSome

def weight? (cache : ShardedCache κ α) (key : κ) : Option UInt64 := (cache.slot? key).map (·.weight)

def generation (cache : ShardedCache κ α) (key : κ) : Nat := (cache.shardOf key).generation

def size (cache : ShardedCache κ α) : Nat :=
  cache.shards.foldr (fun shard sum => shard.slots.length + sum) 0

def tick (cache : ShardedCache κ α) : ShardedCache κ α := { cache with clock := cache.clock + 1 }

/-- A hit makes the key the most recently used one; a miss takes a stamp too. -/
def get (cache : ShardedCache κ α) (key : κ) : Option α × ShardedCache κ α :=
  match cache.slot? key with
  | some slot =>
      let touched := cache.tick.onShard key
        (Shard.bringForward · { slot with stamp := cache.clock })
      (some slot.value, { touched with hits := cache.hits + 1 })
  | none => (none, { cache.tick with misses := cache.misses + 1 })

/-- Takes the key's slot away and gives back its weight. -/
def release (cache : ShardedCache κ α) (key : κ) : ShardedCache κ α :=
  match cache.slot? key with
  | some slot =>
      { cache.onShard key (Shard.without · key) with used := cache.used - slot.weight }
  | none => cache

/-- An entry above the whole budget is not kept, and neither is what it was to replace. -/
def insert (cache : ShardedCache κ α) (key : κ) (value : α) (weight : UInt64) :
    Bool × ShardedCache κ α :=
  if cache.budget < weight then (false, cache.release key)
  else
    let released := cache.release key
    let kept := released.tick.onShard key
      (Shard.bringForward · ⟨key, value, weight, cache.clock⟩)
    (true, { kept with used := released.used + weight })

/-- The shard whose last slot is the oldest one; the first of equals. -/
def oldest? (shards : List (Shard κ α)) : Option (Nat × Slot κ α) :=
  shards.zipIdx.foldl (fun found (shard, index) =>
    match shard.slots.getLast?, found with
    | none, _ => found
    | some slot, none => some (index, slot)
    | some slot, some (_, older) => if slot.stamp < older.stamp then some (index, slot) else found)
    none

def evictOldest? (cache : ShardedCache κ α) : Option (ShardedCache κ α) :=
  (oldest? cache.shards).map (fun (index, slot) =>
    { cache with
        shards := cache.shards.modify index
          (fun shard => { shard with slots := shard.slots.dropLast })
        used := cache.used - slot.weight
        evictions := cache.evictions + 1 })

def shrinkBy : Nat → ShardedCache κ α → ShardedCache κ α
  | 0, cache => cache
  | bound + 1, cache =>
      if cache.budget < cache.used then
        match cache.evictOldest? with
        | some smaller => shrinkBy bound smaller
        | none => cache
      else cache

/-- Each step takes an entry, so there are no more steps than entries. -/
def shrink (cache : ShardedCache κ α) : ShardedCache κ α := shrinkBy cache.size cache

def put (cache : ShardedCache κ α) (key : κ) (value : α) (weight : UInt64) : ShardedCache κ α :=
  ((cache.onShard key Shard.written).insert key value weight).2.shrink

/-- Keeps a value brought from storage, unless the shard was written since the count was noted. -/
def fill (cache : ShardedCache κ α) (key : κ) (value : α) (weight : UInt64) (generation : Nat) :
    Bool × ShardedCache κ α :=
  if cache.generation key ≠ generation then (false, cache)
  else match cache.insert key value weight with
    | (false, cache) => (false, cache)
    | (true, cache) => (true, cache.shrink)

/-- Counts as a write whether or not the key is there. -/
def replace (cache : ShardedCache κ α) (key : κ) (value : α) (weight : UInt64) :
    Bool × ShardedCache κ α :=
  let cache := cache.onShard key Shard.written
  if cache.contains key then
    match cache.insert key value weight with
    | (false, cache) => (false, cache)
    | (true, cache) => (true, cache.shrink)
  else (false, cache)

/-- Puts another value under a cached key without counting as a use or a write. -/
def amend (cache : ShardedCache κ α) (key : κ) (change : α → α) : ShardedCache κ α :=
  cache.onShard key (fun shard =>
    { shard with slots := shard.slots.map (fun slot =>
        if slot.key = key then { slot with value := change slot.value } else slot) })

def remove (cache : ShardedCache κ α) (key : κ) : Option α × ShardedCache κ α :=
  ((cache.slot? key).map (·.value), (cache.onShard key Shard.written).release key)

def clear (cache : ShardedCache κ α) : ShardedCache κ α :=
  { cache with
      shards := cache.shards.map (fun shard => { shard.written with slots := [] })
      used := cache.used - cache.shards.foldr (fun shard sum => shard.weight + sum) 0 }

def setBudget (cache : ShardedCache κ α) (budget : UInt64) : ShardedCache κ α :=
  { cache with budget }.shrink

def text (cache : ShardedCache κ α) : String :=
  "ConcurrentCache \x7b shards: " ++ toString cache.shards.length ++ ", max_memory_size: " ++
    toString cache.budget.toNat ++ ", used: " ++ toString cache.used.toNat ++ " \x7d"

end ShardedCache

end BundleStore
