import BundleStore.Proofs.Cache.Departures
import BundleStore.Proofs.Coherence.Steps

set_option autoImplicit false

/-! What the cache saves. A node that is cached, be it as missing, is not loaded again; and once it has
been loaded, only a few things can make another load necessary, an eviction among them. Whatever is
cached is charged what it weighs. -/

namespace BundleStore

/-- The calls to storage that a run makes, in their order. -/
def Task.calls {ε α σ : Type} (serve : Serve σ) : Task ε α → σ → List StorageCall
  | done _, _ => []
  | fail _, _ => []
  | act action rest, state =>
      let later := (rest (serve action state).1).calls serve (serve action state).2
      match action with
      | .storage call => call :: later
      | _ => later

namespace BundleCache

/-! ### What may be done with the cache -/

/-- The steps that can be asked of the cache by themselves. Filling it is part of a fetch, and a
state is computed on a bundle without changing its record. -/
def Plain : CacheStep → Prop
  | .fill _ _ _ => False
  | .keepComputed _ before after => after.record = before.record
  | _ => True

/-- One thing done with the cache. What storage answers to a fetch, should it be asked, is given. -/
inductive Use where
  | get (id : NodeId) (answer : Except StorageError (Option Bundle))
  | step (step : CacheStep) (plain : Plain step)

def answering (answer : Except StorageError (Option Bundle)) : Task.Serve BundleCache
  | .storage (.loadBundle _), cache => (answer, cache)
  | .storage call, cache => (.error (.injected call.name), cache)
  | .cache step, cache => cache.serve step
  | .warn _, cache => ((), cache)

def use (cache : BundleCache) : Use → BundleCache
  | .get id answer => ((fetchBundle id).run (answering answer) cache).2
  | .step step _ => (cache.serve step).2

def loads (cache : BundleCache) : Use → List StorageCall
  | .get id answer => (fetchBundle id).calls (answering answer) cache
  | .step _ _ => []

def after (cache : BundleCache) (uses : List Use) : BundleCache := uses.foldl use cache

variable {cache : BundleCache} {id : NodeId}

theorem contains_held : cache.contains id = true ↔ cache.held? id ≠ none := by
  rw [contains, ShardedCache.contains, held?, ShardedCache.value?]
  cases cache.entries.slot? id <;> simp

/-- A node that is cached is not loaded. -/
theorem get_cached (cached : cache.contains id = true)
    (answer : Except StorageError (Option Bundle)) :
    cache.use (.get id answer) = (cache.lookup id).2 ∧ cache.loads (.get id answer) = [] := by
  have held := contains_held.mp cached
  have known := cache.lookup_held id
  cases seen : cache.held? id with
  | none => exact absurd seen held
  | some entry =>
      rw [seen] at known
      cases entry <;>
        simp only [use, loads, fetchBundle, Task.cache, bind, Task.bind, Task.run, Task.calls,
          answering, serve, known, pure, and_self]

theorem get_uncached (uncached : cache.contains id = false)
    (answer : Except StorageError (Option Bundle)) :
    cache.loads (.get id answer) = [.loadBundle id] ∧
      cache.use (.get id answer) = match answer with
        | .error _ => (cache.lookup id).2
        | .ok loaded => ((cache.lookup id).2.fill id (loaded.map Bundle.markOld)
            ((cache.lookup id).2.generation id)).2 := by
  have known := cache.lookup_held id
  cases seen : cache.held? id with
  | some entry =>
      have cached : cache.contains id = true := contains_held.mpr (by simp [seen])
      rw [cached] at uncached
      cases uncached
  | none =>
      rw [seen] at known
      cases answer <;>
        simp only [use, loads, fetchBundle, Task.cache, Task.call, Task.ofExcept, bind, Task.bind,
          Task.run, Task.calls, answering, serve, known, pure, true_and]
      all_goals rfl

theorem loads_get (id : NodeId) (answer : Except StorageError (Option Bundle)) :
    cache.loads (.get id answer) = if cache.contains id = true then [] else [.loadBundle id] := by
  split
  · rename_i cached
    exact (get_cached cached answer).2
  · rename_i uncached
    exact (get_uncached (Bool.eq_false_iff.mpr uncached) answer).1

theorem loads_iff {use : Use} : .loadBundle id ∈ cache.loads use ↔
    ∃ answer, use = .get id answer ∧ cache.contains id = false := by
  constructor
  · intro loaded
    cases use with
    | step step plain => exact nomatch loaded
    | get other answer =>
        rw [loads_get] at loaded
        split at loaded
        · exact nomatch loaded
        · rename_i uncached
          cases List.mem_singleton.mp loaded
          exact ⟨answer, rfl, Bool.eq_false_iff.mpr uncached⟩
  · rintro ⟨answer, rfl, uncached⟩
    rw [(get_uncached uncached answer).1]
    exact List.mem_singleton_self _

/-! ### What makes a node leave -/

/-- The use takes the node out of the cache by itself, whatever else is cached. -/
def Use.Discards (budget : UInt64) (id : NodeId) : Use → Prop
  | .step (.invalidate gone) _ => id = gone
  | .step .clear _ => True
  | .step (.put bundle) _ => id = bundle.id ∧ budget < (CacheEntry.present bundle).weight
  | .step (.refresh bundle) _ => id = bundle.id ∧ budget < (CacheEntry.present bundle).weight
  | .step (.putMissing absent) _ => id = absent ∧ budget < CacheEntry.missingWeight
  | _ => False

/-- The use evicts entries, and the node is cached before and not afterwards. -/
structure Evicts (cache : BundleCache) (use : Use) (id : NodeId) : Prop where
  cached : cache.contains id = true
  gone : (cache.use use).contains id = false
  evicted : cache.entries.evictions < (cache.use use).entries.evictions

/-- Nothing comes into the cache of what was loaded: it was not, or it is above the whole budget. -/
def Use.Wasted (budget : UInt64) : Use → Prop
  | .get _ (.error _) => True
  | .get _ (.ok loaded) => budget < (CacheEntry.ofLoaded loaded).weight
  | .step _ _ => False

abbrev Leaves (lost : NodeId → Prop) (before after : BundleCache) : Prop :=
  ShardedCache.Leaves CacheEntry.weight lost before.entries after.entries

abbrev Fair (cache : BundleCache) : Prop := cache.entries.Fair CacheEntry.weight

theorem Fair.leaves_lookup (fair : cache.Fair) (id : NodeId) (lost : NodeId → Prop) :
    cache.Leaves lost (cache.lookup id).2 := by
  rw [Leaves, entries_lookup]
  exact ShardedCache.Fair.leaves_get fair id

theorem Fair.contains_lookup (fair : cache.Fair) (id other : NodeId) :
    (cache.lookup id).2.contains other = cache.contains other := by
  apply Bool.eq_iff_iff.mpr
  rw [contains_held, contains_held, held?_lookup fair.orderly.ordered_queue.sharded]

theorem weight_markOld (loaded : Option Bundle) :
    (CacheEntry.ofLoaded (loaded.map Bundle.markOld)).weight = (CacheEntry.ofLoaded loaded).weight := by
  cases loaded <;> rfl

theorem weight_computing {before after : Bundle} (recorded : after.record = before.record)
    (entry : CacheEntry) : (entry.computing before after).weight = entry.weight := by
  have size : after.record.memorySize = before.record.memorySize := by rw [recorded]
  rw [CacheEntry.computing]
  split
  · rename_i same
    rw [same]
    exact congrArg UInt64.ofNat size
  · rfl

/-- One use takes nothing away but what it discards, or else it evicts. -/
theorem Fair.leaves (fair : cache.Fair) (use : Use) :
    cache.Leaves (use.Discards cache.entries.budget) (cache.use use) := by
  cases use with
  | get id answer =>
      have looked := fair.leaves_lookup id (Use.Discards cache.entries.budget · (.get id answer))
      cases cached : cache.contains id with
      | true =>
          rw [(get_cached cached answer).1]
          exact looked
      | false =>
          rw [(get_uncached cached answer).2]
          cases answer with
          | error error => exact looked
          | ok loaded =>
              have filled := ShardedCache.Fair.leaves_fill looked.fair id
                (CacheEntry.ofLoaded (loaded.map Bundle.markOld)) ((cache.lookup id).2.generation id)
              refine looked.trans (filled.narrow fun other held oversized => ?_)
              have there : (cache.lookup id).2.contains id = true := oversized.1 ▸ held
              rw [fair.contains_lookup, cached] at there
              cases there
  | step step plain =>
      cases step with
      | lookup id => exact fair.leaves_lookup id _
      | generation id => exact ShardedCache.Fair.leaves_refl fair
      | fill id loaded generation => exact plain.elim
      | put bundle => exact ShardedCache.Fair.leaves_put fair bundle.id (.present bundle)
      | refresh bundle => exact ShardedCache.Fair.leaves_replace fair bundle.id (.present bundle)
      | putMissing id => exact ShardedCache.Fair.leaves_put fair id .missing
      | invalidate id => exact ShardedCache.Fair.leaves_remove fair id
      | clear => exact ShardedCache.Fair.leaves_clear fair
      | keepComputed id before after =>
          exact ShardedCache.Fair.leaves_amend fair id (weight_computing plain)

/-! ### Whole runs -/

theorem fair_new (budget : UInt64) (shards : Nat) (spread : NodeId → Nat) :
    (new budget shards spread).Fair :=
  (ShardedCache.Ordered.new budget shards spread).fair (fun _slot impossible => nomatch impossible)

theorem Fair.after (fair : cache.Fair) (uses : List Use) :
    (cache.after uses).Fair ∧ (cache.after uses).entries.budget = cache.entries.budget := by
  induction uses generalizing cache with
  | nil => exact ⟨fair, rfl⟩
  | cons use rest ih =>
      have leaves := fair.leaves use
      obtain ⟨later, budget⟩ := @ih (cache.use use) leaves.fair
      exact ⟨later, budget.trans leaves.budget⟩

/-- What is loaded comes into the cache and survives the evictions that it causes. -/
theorem Fair.load_kept (fair : cache.Fair) {use : Use} (loaded : .loadBundle id ∈ cache.loads use)
    (kept : ¬ use.Wasted cache.entries.budget) : (cache.use use).contains id = true := by
  obtain ⟨answer, rfl, uncached⟩ := loads_iff.mp loaded
  rw [(get_uncached uncached answer).2]
  cases answer with
  | error error => exact absurd trivial kept
  | ok found =>
      have looked := fair.leaves_lookup id (fun _ => False)
      have fits : (CacheEntry.ofLoaded (found.map Bundle.markOld)).weight ≤
          (cache.lookup id).2.entries.budget := by
        rw [looked.budget, weight_markOld]
        exact UInt64.not_lt.mp kept
      exact looked.fair.orderly.fill_contains fits

/-- A node that was cached and is not any longer has left in some use on the way. -/
theorem Fair.left_between (fair : cache.Fair) (cached : cache.contains id = true) {uses : List Use}
    (gone : (cache.after uses).contains id = false) :
    ∃ before use later, uses = before ++ use :: later ∧
      (use.Discards cache.entries.budget id ∨ (cache.after before).Evicts use id) := by
  induction uses generalizing cache with
  | nil =>
      change cache.contains id = false at gone
      rw [cached] at gone
      cases gone
  | cons use rest ih =>
      have leaves := fair.leaves use
      cases still : (cache.use use).contains id with
      | true =>
          obtain ⟨before, taking, later, rfl, left⟩ := ih leaves.fair still gone
          rw [leaves.budget] at left
          exact ⟨use :: before, taking, later, rfl, left⟩
      | false =>
          refine ⟨[], use, rest, rfl, ?_⟩
          by_cases discards : use.Discards cache.entries.budget id
          · exact Or.inl discards
          · rcases leaves.stays id cached discards with there | evicted
            · rw [show (cache.use use).entries.contains id = false from still] at there
              cases there
            · exact Or.inr ⟨cached, still, evicted⟩

/-- Whatever has been done with a cache: a node is loaded if it is not cached, and only then; each
entry is charged what it weighs; and between two loads of a node it has left the cache, unless nothing
came of the first one. -/
theorem loads_are_needed (budget : UInt64) (shards : Nat) (spread : NodeId → Nat)
    (uses : List Use) :
    let start := new budget shards spread
    let now := start.after uses
    (∀ id answer, now.loads (.get id answer) =
      if now.contains id = true then [] else [.loadBundle id]) ∧
    (∀ id entry, now.held? id = some entry → now.chargedWeight? id = some entry.weight) ∧
    ∀ id earlier first between second, uses = earlier ++ first :: between →
      .loadBundle id ∈ (start.after earlier).loads first → .loadBundle id ∈ now.loads second →
      first.Wasted budget ∨ ∃ before use later, between = before ++ use :: later ∧
        (use.Discards budget id ∨ (start.after (earlier ++ first :: before)).Evicts use id) := by
  intro start now
  obtain ⟨fair, _budget⟩ := (fair_new budget shards spread).after uses
  refine ⟨fun id answer => loads_get id answer,
    fun id entry held => ShardedCache.Fair.weight? fair held, ?_⟩
  intro id earlier first between second split loaded again
  by_cases wasted : first.Wasted budget
  · exact Or.inl wasted
  right
  obtain ⟨fairThen, budgetThen⟩ := (fair_new budget shards spread).after earlier
  have leaves := fairThen.leaves first
  have fairNext : ((start.after earlier).use first).Fair := leaves.fair
  have kept : ((start.after earlier).use first).contains id = true :=
    fairThen.load_kept loaded (budgetThen.symm ▸ wasted)
  have run (rest : List Use) : start.after (earlier ++ first :: rest) =
      ((start.after earlier).use first).after rest := List.foldl_append
  obtain ⟨_answer, _get, uncached⟩ := loads_iff.mp again
  change (start.after uses).contains id = false at uncached
  rw [split, run] at uncached
  obtain ⟨before, use, later, place, left⟩ := fairNext.left_between kept uncached
  rw [leaves.budget, show _ = budget from budgetThen] at left
  exact ⟨before, use, later, place, (run before).symm ▸ left⟩

def page : NodeId := ⟨List.replicate 15 0 ++ [7], rfl⟩

/-- Two missing nodes, and a budget for one. -/
def crowded : List Use := [.get page (.ok none), .get NodeId.zero (.ok none)]

theorem crowded_evicts : ∃ before use later,
    [.get NodeId.zero (.ok none)] = before ++ use :: later ∧
      (use.Discards 20 page ∨ ((new 20 1 (fun _ => 0)).after
        ([] ++ .get page (.ok none) :: before)).Evicts use page) := by
  obtain ⟨_saved, _charged, left⟩ := loads_are_needed 20 1 (fun _ => 0) crowded
  have loaded : .loadBundle page ∈ ((new 20 1 (fun _ => 0)).after []).loads (.get page (.ok none)) :=
    loads_iff.mpr ⟨_, rfl, by decide +kernel⟩
  have again : .loadBundle page ∈
      ((new 20 1 (fun _ => 0)).after crowded).loads (.get page (.ok none)) :=
    loads_iff.mpr ⟨_, rfl, by decide +kernel⟩
  have fits : ¬ (20 : UInt64) < CacheEntry.missingWeight := by decide
  exact (left page [] _ _ _ rfl loaded again).resolve_left fits

end BundleCache

end BundleStore
