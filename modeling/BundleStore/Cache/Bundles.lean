import BundleStore.Cache.Sharded
import BundleStore.Task.Basic

set_option autoImplicit false

/-! The cache of bundles. A node is not cached, cached with its bundle, or cached as missing; one
that is cached as missing is not looked for in storage again. A bundle is charged what it holds,
a missing node a fixed weight. -/

namespace BundleStore

inductive CacheEntry where
  | present (bundle : Bundle)
  | missing
deriving DecidableEq

namespace CacheEntry

def missingWeight : UInt64 := 16

def weight : CacheEntry → UInt64
  | .present bundle => UInt64.ofNat bundle.memorySize
  | .missing => missingWeight

def ofLoaded : Option Bundle → CacheEntry
  | some bundle => .present bundle
  | none => .missing

end CacheEntry

structure BundleCache where
  entries : ShardedCache NodeId CacheEntry

namespace BundleCache

def new (budget : UInt64) (shards : Nat) (spread : NodeId → Nat) : BundleCache :=
  ⟨ShardedCache.new budget shards spread⟩

def lookup (cache : BundleCache) (id : NodeId) : Lookup × BundleCache :=
  match cache.entries.get id with
  | (some (.present bundle), entries) => (.present bundle, ⟨entries⟩)
  | (some .missing, entries) => (.missing, ⟨entries⟩)
  | (none, entries) => (.unknown, ⟨entries⟩)

def put (cache : BundleCache) (bundle : Bundle) : BundleCache :=
  let entry := CacheEntry.present bundle
  ⟨cache.entries.put bundle.id entry entry.weight⟩

/-- Only an entry that is there is replaced; a node that is not cached stays so. -/
def refresh (cache : BundleCache) (bundle : Bundle) : Bool × BundleCache :=
  let entry := CacheEntry.present bundle
  let (replaced, entries) := cache.entries.replace bundle.id entry entry.weight
  (replaced, ⟨entries⟩)

def putMissing (cache : BundleCache) (id : NodeId) : BundleCache :=
  ⟨cache.entries.put id .missing CacheEntry.missingWeight⟩

def fill (cache : BundleCache) (id : NodeId) (loaded : Option Bundle) (generation : Nat) :
    Bool × BundleCache :=
  let entry := CacheEntry.ofLoaded loaded
  let (kept, entries) := cache.entries.fill id entry entry.weight generation
  (kept, ⟨entries⟩)

def invalidate (cache : BundleCache) (id : NodeId) : BundleCache := ⟨(cache.entries.remove id).2⟩

def clear (cache : BundleCache) : BundleCache := ⟨cache.entries.clear⟩

/-- A state computed on a bundle that is still cached stays with it. -/
def keepComputed (cache : BundleCache) (id : NodeId) (before after : Bundle) : BundleCache :=
  ⟨cache.entries.amend id (fun entry =>
    if entry = .present before then .present after else entry)⟩

def contains (cache : BundleCache) (id : NodeId) : Bool := cache.entries.contains id

def chargedWeight? (cache : BundleCache) (id : NodeId) : Option UInt64 := cache.entries.weight? id

def serve (cache : BundleCache) : (step : CacheStep) → step.Result × BundleCache
  | .lookup id => cache.lookup id
  | .generation id => (cache.entries.generation id, cache)
  | .fill id loaded generation => cache.fill id loaded generation
  | .put bundle => ((), cache.put bundle)
  | .refresh bundle => cache.refresh bundle
  | .putMissing id => ((), cache.putMissing id)
  | .invalidate id => ((), cache.invalidate id)
  | .clear => ((), cache.clear)
  | .keepComputed id before after => ((), cache.keepComputed id before after)

def text (cache : BundleCache) : String :=
  "BundleCache \x7b inner: " ++ cache.entries.text ++ " \x7d"

end BundleCache

/-- The bundle of a node, from the cache or else from storage. What storage answers, a missing
bundle included, is cached unless a write came in between. -/
def fetchBundle (id : NodeId) : Task StorageError (Option Bundle) := do
  match ← Task.cache (.lookup id) with
  | .present bundle => return some bundle
  | .missing => return none
  | .unknown =>
      let generation ← Task.cache (.generation id)
      let loaded ← Task.call (.loadBundle id)
      let _ ← Task.cache (.fill id (loaded.map Bundle.markOld) generation)
      return loaded.map Bundle.markOld

end BundleStore
