import BundleStore.Cache.Sharded

set_option autoImplicit false

/-! What the operations of a sharded cache do to the values under its keys and to the write counts
of its shards. Weights, stamps and the order of use play no part here: shrinking is only known to
keep a part of the values. -/

namespace BundleStore

namespace Shard

variable {κ α : Type} [DecidableEq κ]

theorem slot?_without (shard : Shard κ α) (key other : κ) :
    (shard.without key).slot? other = if other = key then none else shard.slot? other := by
  rw [slot?, without, List.find?_filter]
  by_cases same : other = key
  · rw [if_pos same, List.find?_eq_none]
    intro slot _member
    simp [same]
  · rw [if_neg same, slot?]
    congr 1
    funext slot
    by_cases found : slot.key = other
    · simp [found, same]
    · simp [found]

theorem slot?_bringForward (shard : Shard κ α) (slot : Slot κ α) (other : κ) :
    (shard.bringForward slot).slot? other =
      if other = slot.key then some slot else shard.slot? other := by
  change (slot :: (shard.without slot.key).slots).find? (·.key = other) = _
  rw [List.find?_cons]
  by_cases same : other = slot.key
  · simp [same]
  · have differs : decide (slot.key = other) = false := decide_eq_false (fun equal => same equal.symm)
    rw [differs, if_neg same]
    exact (slot?_without shard slot.key other).trans (if_neg same)

theorem slot?_dropLast {shard : Shard κ α} {key : κ} {slot : Slot κ α}
    (found : shard.slots.dropLast.find? (·.key = key) = some slot) : shard.slot? key = some slot := by
  rw [slot?]
  by_cases empty : shard.slots = []
  · rw [empty] at found
    cases found
  · rw [← List.dropLast_concat_getLast empty, List.find?_append, found]
    rfl

end Shard

namespace ShardedCache

variable {κ α : Type}

theorem home_lt {cache : ShardedCache κ α} (sharded : 0 < cache.shards.length) (key : κ) :
    cache.home key < cache.shards.length := Nat.mod_lt _ sharded

@[simp]
theorem length_onShard (cache : ShardedCache κ α) (key : κ) (change : Shard κ α → Shard κ α) :
    (cache.onShard key change).shards.length = cache.shards.length :=
  List.length_modify ..

@[simp]
theorem home_onShard (cache : ShardedCache κ α) (key other : κ) (change : Shard κ α → Shard κ α) :
    (cache.onShard key change).home other = cache.home other := by
  rw [home, length_onShard]
  rfl

theorem shardOf_onShard {cache : ShardedCache κ α} (sharded : 0 < cache.shards.length)
    (key other : κ) (change : Shard κ α → Shard κ α) :
    (cache.onShard key change).shardOf other =
      if cache.home other = cache.home key then change (cache.shardOf other)
      else cache.shardOf other := by
  rw [shardOf, home_onShard, onShard, List.getElem?_modify, shardOf,
    List.getElem?_eq_getElem (home_lt sharded other)]
  by_cases same : cache.home other = cache.home key
  · simp [same]
  · simp [same, Ne.symm same]

theorem generation_onShard {cache : ShardedCache κ α} (sharded : 0 < cache.shards.length)
    (key other : κ) (change : Shard κ α → Shard κ α)
    (kept : ∀ shard, (change shard).generation = shard.generation) :
    (cache.onShard key change).generation other = cache.generation other := by
  rw [generation, shardOf_onShard sharded, generation]
  split
  · exact kept _
  · rfl

theorem generation_written {cache : ShardedCache κ α} (sharded : 0 < cache.shards.length)
    (key other : κ) :
    (cache.onShard key Shard.written).generation other =
      if cache.home other = cache.home key then cache.generation other + 1
      else cache.generation other := by
  rw [generation, shardOf_onShard sharded, generation]
  split <;> rfl

/-- The caches have the same shards in number, and spread the keys in the same way. -/
structure Alike (after before : ShardedCache κ α) : Prop where
  length : after.shards.length = before.shards.length
  home : ∀ key, after.home key = before.home key

theorem clear_alike (cache : ShardedCache κ α) : Alike cache.clear cache := by
  constructor
  · exact List.length_map ..
  · intro key
    rw [home, home, clear, List.length_map]

theorem generation_clear {cache : ShardedCache κ α} (sharded : 0 < cache.shards.length)
    (key : κ) : cache.clear.generation key = cache.generation key + 1 := by
  rw [generation, shardOf, (clear_alike cache).home, generation, shardOf, clear,
    List.getElem?_map, List.getElem?_eq_getElem (home_lt sharded key)]
  rfl

theorem length_new (budget : UInt64) (shards : Nat) (spread : κ → Nat) :
    0 < (new budget shards spread : ShardedCache κ α).shards.length := by
  rw [new, List.length_replicate]
  omega

variable [DecidableEq κ]

def value? (cache : ShardedCache κ α) (key : κ) : Option α := (cache.slot? key).map (·.value)

theorem slot?_onShard {cache : ShardedCache κ α} (sharded : 0 < cache.shards.length)
    (key other : κ) (change : Shard κ α → Shard κ α) :
    (cache.onShard key change).slot? other =
      if cache.home other = cache.home key then (change (cache.shardOf other)).slot? other
      else cache.slot? other := by
  rw [slot?, shardOf_onShard sharded]
  split <;> rfl

theorem value?_written {cache : ShardedCache κ α} (sharded : 0 < cache.shards.length)
    (key other : κ) : (cache.onShard key Shard.written).value? other = cache.value? other := by
  rw [value?, slot?_onShard sharded, value?]
  split <;> rfl

/-! ### Use and removal -/

theorem slot?_eq_some_key {cache : ShardedCache κ α} {key : κ} {slot : Slot κ α}
    (found : cache.slot? key = some slot) : slot.key = key := by
  have matched := List.find?_some found
  exact of_decide_eq_true matched

theorem get_eq (cache : ShardedCache κ α) (key : κ) : (cache.get key).1 = cache.value? key := by
  rw [get, value?]
  split
  · rename_i slot found
    rw [found]
    rfl
  · rename_i absent
    rw [absent]
    rfl

/-- Some of the values may be gone, and nothing else has changed. -/
structure Thinner (after before : ShardedCache κ α) : Prop extends Alike after before where
  generation : ∀ key, after.generation key = before.generation key
  value? : ∀ {key value}, after.value? key = some value → before.value? key = some value

theorem Thinner.refl (cache : ShardedCache κ α) : Thinner cache cache :=
  ⟨⟨rfl, fun _ => rfl⟩, fun _ => rfl, fun found => found⟩

theorem Thinner.trans {first second third : ShardedCache κ α}
    (last : Thinner third second) (early : Thinner second first) : Thinner third first :=
  ⟨⟨last.length.trans early.length, fun key => (last.home key).trans (early.home key)⟩,
    fun key => (last.generation key).trans (early.generation key),
    fun found => early.value? (last.value? found)⟩

theorem get_alike (cache : ShardedCache κ α) (key : κ) : Alike (cache.get key).2 cache := by
  rw [get]
  split
  · exact ⟨length_onShard .., fun other => home_onShard cache.tick key other _⟩
  · exact ⟨rfl, fun _ => rfl⟩

theorem value?_get {cache : ShardedCache κ α} (sharded : 0 < cache.shards.length) (key other : κ) :
    (cache.get key).2.value? other = cache.value? other := by
  rw [get]
  split
  · rename_i slot found
    have keyed := slot?_eq_some_key found
    have still : 0 < cache.tick.shards.length := sharded
    change ((cache.tick.onShard key _).slot? other).map (·.value) = _
    rw [slot?_onShard still]
    split
    · rw [Shard.slot?_bringForward]
      split
      · rename_i same
        have asked : other = key := same.trans keyed
        rw [asked, value?, found]
        rfl
      · rfl
    · rfl
  · rfl

theorem generation_get {cache : ShardedCache κ α} (sharded : 0 < cache.shards.length)
    (key other : κ) : (cache.get key).2.generation other = cache.generation other := by
  rw [get]
  split
  · have still : 0 < cache.tick.shards.length := sharded
    exact generation_onShard still key other _ (fun _ => rfl)
  · rfl

theorem release_alike (cache : ShardedCache κ α) (key : κ) : Alike (cache.release key) cache := by
  rw [release]
  split
  · exact ⟨length_onShard .., fun other => home_onShard cache key other _⟩
  · exact ⟨rfl, fun _ => rfl⟩

theorem value?_release {cache : ShardedCache κ α} (sharded : 0 < cache.shards.length)
    (key other : κ) :
    (cache.release key).value? other = if other = key then none else cache.value? other := by
  rw [release]
  split
  · change ((cache.onShard key _).slot? other).map (·.value) = _
    rw [slot?_onShard sharded]
    by_cases same : other = key
    · rw [if_pos (congrArg cache.home same), Shard.slot?_without, if_pos same, if_pos same]
      rfl
    · rw [if_neg same]
      split
      · rw [Shard.slot?_without, if_neg same]
        rfl
      · rfl
  · rename_i absent
    by_cases same : other = key
    · rw [if_pos same, same, value?, absent]
      rfl
    · rw [if_neg same]

theorem generation_release {cache : ShardedCache κ α} (sharded : 0 < cache.shards.length)
    (key other : κ) : (cache.release key).generation other = cache.generation other := by
  rw [release]
  split
  · exact generation_onShard sharded key other _ (fun _ => rfl)
  · rfl

/-! ### Insertion and eviction -/

theorem insert_alike (cache : ShardedCache κ α) (key : κ) (value : α) (weight : UInt64) :
    Alike (cache.insert key value weight).2 cache := by
  have released := release_alike cache key
  rw [insert]
  split
  · exact released
  · exact ⟨(length_onShard ..).trans released.length,
      fun other => (home_onShard ..).trans (released.home other)⟩

theorem value?_insert {cache : ShardedCache κ α} (sharded : 0 < cache.shards.length) (key : κ)
    (value : α) (weight : UInt64) {other : κ} {found : α}
    (present : (cache.insert key value weight).2.value? other = some found) :
    if other = key then found = value else cache.value? other = some found := by
  have released := release_alike cache key
  have still : 0 < (cache.release key).tick.shards.length := released.length ▸ sharded
  rw [insert] at present
  split at present
  · rw [value?_release sharded] at present
    by_cases same : other = key
    · rw [if_pos same] at present
      cases present
    · rw [if_neg same] at present ⊢
      exact present
  · change (((cache.release key).tick.onShard key _).slot? other).map (·.value) = _ at present
    rw [slot?_onShard still] at present
    by_cases same : other = key
    · rw [if_pos (congrArg _ same), Shard.slot?_bringForward, if_pos same] at present
      rw [if_pos same]
      exact (Option.some.inj present).symm
    · rw [if_neg same]
      have kept := value?_release sharded key other
      rw [if_neg same] at kept
      rw [← kept]
      split at present
      · rw [Shard.slot?_bringForward, if_neg same] at present
        exact present
      · exact present

theorem generation_insert {cache : ShardedCache κ α} (sharded : 0 < cache.shards.length)
    (key : κ) (value : α) (weight : UInt64) (other : κ) :
    (cache.insert key value weight).2.generation other = cache.generation other := by
  have released := release_alike cache key
  have still : 0 < (cache.release key).tick.shards.length := released.length ▸ sharded
  rw [insert]
  split
  · exact generation_release sharded key other
  · exact (generation_onShard still key other (Shard.bringForward · _) (fun _ => rfl)).trans
      (generation_release sharded key other)

theorem evictOldest?_thinner {cache smaller : ShardedCache κ α}
    (evicted : cache.evictOldest? = some smaller) : Thinner smaller cache := by
  rw [evictOldest?, Option.map_eq_some_iff] at evicted
  obtain ⟨⟨index, slot⟩, _found, rfl⟩ := evicted
  have lengthKept : (cache.shards.modify index
      (fun shard => { shard with slots := shard.slots.dropLast })).length = cache.shards.length :=
    List.length_modify ..
  have homeKept (key : κ) : cache.spread key % (cache.shards.modify index
      (fun shard => { shard with slots := shard.slots.dropLast })).length = cache.home key := by
    rw [lengthKept]
    rfl
  refine ⟨⟨lengthKept, homeKept⟩, fun key => ?_, fun {key value} present => ?_⟩
  · simp only [generation, shardOf, home, lengthKept, List.getElem?_modify]
    cases cache.shards[cache.spread key % cache.shards.length]? with
    | none => rfl
    | some shard =>
        simp only [Option.map_eq_map, Option.map_some, Option.getD_some]
        split <;> rfl
  · simp only [ShardedCache.value?, slot?, shardOf, home, lengthKept, List.getElem?_modify] at present ⊢
    cases at? : cache.shards[cache.spread key % cache.shards.length]? with
    | none =>
        rw [at?] at present
        exact present
    | some shard =>
        rw [at?] at present
        simp only [Option.map_eq_map, Option.map_some, Option.getD_some] at present ⊢
        split at present
        · obtain ⟨held, seen, rfl⟩ := Option.map_eq_some_iff.mp present
          rw [Shard.slot?_dropLast seen]
          rfl
        · exact present

theorem shrinkBy_thinner (bound : Nat) (cache : ShardedCache κ α) :
    Thinner (shrinkBy bound cache) cache := by
  induction bound generalizing cache with
  | zero => exact Thinner.refl cache
  | succ bound ih =>
      rw [shrinkBy]
      split
      · split
        · rename_i smaller evicted
          exact (ih smaller).trans (evictOldest?_thinner evicted)
        · exact Thinner.refl cache
      · exact Thinner.refl cache

theorem shrink_thinner (cache : ShardedCache κ α) : Thinner cache.shrink cache :=
  shrinkBy_thinner cache.size cache

/-! ### Writes, fills and the rest -/

/-- The shard of the key counts one more write, and the key has the new value or none. -/
structure Wrote (after before : ShardedCache κ α) (key : κ) (value : Option α) : Prop
    extends Alike after before where
  generation : ∀ other, after.generation other =
    if before.home other = before.home key then before.generation other + 1
    else before.generation other
  value? : ∀ {other found}, after.value? other = some found →
    if other = key then value = some found else before.value? other = some found

theorem Wrote.thinner {first second third : ShardedCache κ α} {key : κ} {value : Option α}
    (thinner : Thinner third second) (wrote : Wrote second first key value) :
    Wrote third first key value :=
  ⟨⟨thinner.length.trans wrote.length, fun other => (thinner.home other).trans (wrote.home other)⟩,
    fun other => (thinner.generation other).trans (wrote.generation other),
    fun found => wrote.value? (thinner.value? found)⟩

theorem written_insert_wrote {cache : ShardedCache κ α} (sharded : 0 < cache.shards.length)
    (key : κ) (value : α) (weight : UInt64) :
    Wrote ((cache.onShard key Shard.written).insert key value weight).2 cache key (some value) := by
  have still : 0 < (cache.onShard key Shard.written).shards.length := by
    rw [length_onShard]
    exact sharded
  have alike := insert_alike (cache.onShard key Shard.written) key value weight
  refine ⟨⟨alike.length.trans (length_onShard ..),
    fun other => (alike.home other).trans (home_onShard ..)⟩, fun other => ?_,
    fun {other found} present => ?_⟩
  · rw [generation_insert still, generation_written sharded]
  · have either := value?_insert still key value weight present
    rw [value?_written sharded] at either
    split
    · rename_i same
      rw [if_pos same] at either
      rw [either]
    · rename_i differs
      rw [if_neg differs] at either
      exact either

theorem put_wrote {cache : ShardedCache κ α} (sharded : 0 < cache.shards.length) (key : κ)
    (value : α) (weight : UInt64) : Wrote (cache.put key value weight) cache key (some value) :=
  Wrote.thinner (shrink_thinner _) (written_insert_wrote sharded key value weight)

theorem replace_wrote {cache : ShardedCache κ α} (sharded : 0 < cache.shards.length) (key : κ)
    (value : α) (weight : UInt64) :
    Wrote (cache.replace key value weight).2 cache key (some value) := by
  have inserted := written_insert_wrote sharded key value weight
  rw [replace]
  split
  · rename_i _present
    cases outcome : (cache.onShard key Shard.written).insert key value weight with
    | mk kept cache' =>
        rw [outcome] at inserted
        cases kept with
        | false => exact inserted
        | true => exact Wrote.thinner (shrink_thinner _) inserted
  · rename_i absent
    refine ⟨⟨length_onShard .., fun _ => home_onShard ..⟩,
      fun other => generation_written sharded key other, fun {other found} present => ?_⟩
    split
    · rename_i same
      rw [same, value?, Option.map_eq_some_iff] at present
      obtain ⟨slot, seen, _value⟩ := present
      have there : (cache.onShard key Shard.written).contains key = true := by
        rw [contains, seen]
        rfl
      exact absurd there absent
    · rw [value?_written sharded] at present
      exact present

theorem remove_wrote {cache : ShardedCache κ α} (sharded : 0 < cache.shards.length) (key : κ) :
    Wrote (cache.remove key).2 cache key none := by
  have still : 0 < (cache.onShard key Shard.written).shards.length := by
    rw [length_onShard]
    exact sharded
  have released := release_alike (cache.onShard key Shard.written) key
  refine ⟨⟨released.length.trans (length_onShard ..),
    fun other => (released.home other).trans (home_onShard ..)⟩, fun other => ?_,
    fun {other found} present => ?_⟩
  · exact (generation_release still key other).trans (generation_written sharded key other)
  · change ((cache.onShard key Shard.written).release key).value? other = some found at present
    rw [value?_release still, value?_written sharded] at present
    split at present
    · cases present
    · rename_i differs
      rw [if_neg differs]
      exact present

/-- A fill that the write count lets through sets the key, any other one does nothing. -/
structure Filled (after before : ShardedCache κ α) (key : κ) (value : α) (noted : Nat) : Prop
    extends Alike after before where
  generation : ∀ other, after.generation other = before.generation other
  value? : ∀ {other found}, after.value? other = some found →
    (other = key ∧ found = value ∧ before.generation key = noted) ∨ before.value? other = some found

theorem fill_filled {cache : ShardedCache κ α} (sharded : 0 < cache.shards.length) (key : κ)
    (value : α) (weight : UInt64) (noted : Nat) :
    Filled (cache.fill key value weight noted).2 cache key value noted := by
  have alike := insert_alike cache key value weight
  have counts := generation_insert sharded key value weight
  have values {other : κ} {found : α}
      (present : (cache.insert key value weight).2.value? other = some found) :=
    value?_insert sharded key value weight present
  rw [fill]
  split
  · exact ⟨⟨rfl, fun _ => rfl⟩, fun _ => rfl, fun present => Or.inr present⟩
  · rename_i current
    have same : cache.generation key = noted := Decidable.not_not.mp current
    cases outcome : cache.insert key value weight with
    | mk kept cache' =>
        rw [outcome] at alike counts values
        have inserted : Filled cache' cache key value noted := by
          refine ⟨alike, counts, fun {other found} present => ?_⟩
          have either := values present
          split at either
          · rename_i asked
            exact Or.inl ⟨asked, either, same⟩
          · exact Or.inr either
        cases kept with
        | false => exact inserted
        | true =>
            have thinner := shrink_thinner cache'
            exact ⟨⟨thinner.length.trans alike.length,
              fun other => (thinner.home other).trans (alike.home other)⟩,
              fun other => (thinner.generation other).trans (counts other),
              fun present => inserted.value? (thinner.value? present)⟩

theorem amend_alike (cache : ShardedCache κ α) (key : κ) (change : α → α) :
    Alike (cache.amend key change) cache :=
  ⟨length_onShard .., fun _ => home_onShard ..⟩

theorem generation_amend {cache : ShardedCache κ α} (sharded : 0 < cache.shards.length)
    (key : κ) (change : α → α) (other : κ) :
    (cache.amend key change).generation other = cache.generation other :=
  generation_onShard sharded key other _ (fun _ => rfl)

/-- The slot with another value, if it is the one of the key. -/
def amendSlot (key : κ) (change : α → α) (slot : Slot κ α) : Slot κ α :=
  if slot.key = key then { slot with value := change slot.value } else slot

@[simp]
theorem key_amendSlot (key : κ) (change : α → α) (slot : Slot κ α) :
    (amendSlot key change slot).key = slot.key := by
  unfold amendSlot
  split <;> rfl

@[simp]
theorem stamp_amendSlot (key : κ) (change : α → α) (slot : Slot κ α) :
    (amendSlot key change slot).stamp = slot.stamp := by
  unfold amendSlot
  split <;> rfl

@[simp]
theorem weight_amendSlot (key : κ) (change : α → α) (slot : Slot κ α) :
    (amendSlot key change slot).weight = slot.weight := by
  unfold amendSlot
  split <;> rfl

theorem value_amendSlot (key : κ) (change : α → α) (slot : Slot κ α) :
    (amendSlot key change slot).value =
      if slot.key = key then change slot.value else slot.value := by
  unfold amendSlot
  split <;> rfl

theorem amend_eq (cache : ShardedCache κ α) (key : κ) (change : α → α) :
    cache.amend key change = cache.onShard key (fun shard =>
      { shard with slots := shard.slots.map (amendSlot key change) }) := rfl

theorem value?_amend {cache : ShardedCache κ α} (sharded : 0 < cache.shards.length)
    (key : κ) (change : α → α) (other : κ) :
    (cache.amend key change).value? other =
      if other = key then (cache.value? other).map change else cache.value? other := by
  rw [value?, amend_eq, slot?_onShard sharded]
  by_cases sameHome : cache.home other = cache.home key
  · have sameTest : (fun slot : Slot κ α => decide (slot.key = other)) ∘ amendSlot key change =
        fun slot => decide (slot.key = other) := by
      funext slot
      rw [Function.comp, key_amendSlot]
    rw [if_pos sameHome, Shard.slot?, List.find?_map, sameTest]
    change ((cache.slot? other).map _).map _ = _
    rw [value?]
    cases seen : cache.slot? other with
    | none => simp
    | some slot => simp [value_amendSlot, slot?_eq_some_key seen, apply_ite Option.some]
  · have differs : other ≠ key := fun same => sameHome (congrArg cache.home same)
    rw [if_neg sameHome, if_neg differs]
    rfl

theorem value?_clear (cache : ShardedCache κ α) (key : κ) : cache.clear.value? key = none := by
  simp only [value?, slot?, shardOf, home, clear, List.length_map, List.getElem?_map]
  cases cache.shards[cache.spread key % cache.shards.length]? <;> rfl

theorem value?_new (budget : UInt64) (shards : Nat) (spread : κ → Nat) (key : κ) :
    (new budget shards spread : ShardedCache κ α).value? key = none := by
  simp only [value?, slot?, shardOf, new, List.getElem?_replicate]
  split <;> rfl

end ShardedCache

end BundleStore
