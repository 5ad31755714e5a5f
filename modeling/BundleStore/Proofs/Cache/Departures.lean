import BundleStore.Proofs.Cache.Order

set_option autoImplicit false

/-! The order in which entries would leave a cache, found by evicting until nothing is left, and what
can make them leave. Removing a key takes its entry out of the order and leaves every other one where
it was. Other than by removals entries go in evictions only, and never the one that has just come
in. -/

namespace BundleStore

namespace ShardedCache

variable {κ α : Type}

def departures : Nat → ShardedCache κ α → List (Slot κ α)
  | 0, _ => []
  | bound + 1, cache =>
      match oldest? cache.shards, cache.evictOldest? with
      | some (_, slot), some smaller => slot :: departures bound smaller
      | _, _ => []

/-- The next one to go comes first. Each step takes an entry, so there are no more steps than
entries. -/
def queue (cache : ShardedCache κ α) : List (Slot κ α) := departures cache.size cache

variable {cache : ShardedCache κ α} {line : List (Slot κ α)}

theorem Ordered.departures (ordered : Ordered cache line) {bound : Nat}
    (enough : line.length ≤ bound) : ShardedCache.departures bound cache = line := by
  induction bound generalizing cache line with
  | zero => exact (List.length_eq_zero_iff.mp (Nat.le_zero.mp enough)).symm
  | succ bound ih =>
      rw [ShardedCache.departures]
      cases line with
      | nil =>
          rw [ordered.evictOldest?_nil]
          split
          · rename_i impossible
            cases impossible
          · rfl
      | cons oldest rest =>
          obtain ⟨shards, evicted, smaller⟩ := ordered.evictOldest?_cons
          rw [ordered.oldest?_cons, evicted]
          exact congrArg (oldest :: ·) (ih smaller (Nat.le_of_succ_le_succ enough))

/-- The queue is the line. -/
theorem Ordered.queue_eq (ordered : Ordered cache line) : cache.queue = line :=
  ordered.departures (Nat.le_of_eq ordered.size_eq.symm)

namespace Orderly

theorem ordered_queue (orderly : cache.Orderly) : Ordered cache cache.queue := by
  obtain ⟨line, ordered⟩ := orderly
  rw [ordered.queue_eq]
  exact ordered

variable [DecidableEq κ]

theorem queue_remove (orderly : cache.Orderly) (key : κ) :
    (cache.remove key).2.queue = cache.queue.filter (·.key ≠ key) :=
  ((orderly.ordered_queue.written key).release key).queue_eq

/-- Whether a key is cached, and how, can be seen from the queue. -/
theorem slot?_queue (orderly : cache.Orderly) (key : κ) :
    cache.slot? key = cache.queue.find? (·.key = key) :=
  orderly.ordered_queue.slot?_eq key

theorem contains_queue (orderly : cache.Orderly) (key : κ) :
    cache.contains key = true ↔ ∃ slot ∈ cache.queue, slot.key = key := by
  rw [contains, orderly.slot?_queue, List.find?_isSome]
  simp only [decide_eq_true_eq]

end Orderly

/-! ### What an operation leaves -/

/-- Every slot is charged what its value weighs. -/
structure Fair (weigh : α → UInt64) (cache : ShardedCache κ α) : Prop where
  orderly : cache.Orderly
  charged : ∀ slot ∈ cache.queue, slot.weight = weigh slot.value

variable {weigh : α → UInt64}

theorem Ordered.fair (ordered : Ordered cache line)
    (charged : ∀ slot ∈ line, slot.weight = weigh slot.value) : cache.Fair weigh :=
  ⟨⟨line, ordered⟩, ordered.queue_eq.symm ▸ charged⟩

variable [DecidableEq κ]

theorem Fair.weight? (fair : cache.Fair weigh) {key : κ} {value : α}
    (held : cache.value? key = some value) : cache.weight? key = some (weigh value) := by
  obtain ⟨slot, found, rfl⟩ := Option.map_eq_some_iff.mp held
  rw [fair.orderly.slot?_queue] at found
  have charged := fair.charged slot (List.mem_of_find?_eq_some found)
  rw [ShardedCache.weight?, fair.orderly.slot?_queue, found, Option.map_some, charged]

/-- What was cached still is, but for the lost keys and for what was evicted. -/
structure Leaves (weigh : α → UInt64) (lost : κ → Prop) (before after : ShardedCache κ α) : Prop where
  fair : after.Fair weigh
  budget : after.budget = before.budget
  evictions : before.evictions ≤ after.evictions
  stays : ∀ key, before.contains key = true → ¬ lost key →
    after.contains key = true ∨ before.evictions < after.evictions

namespace Leaves

variable {lost : κ → Prop} {first second third after : ShardedCache κ α}

theorem of_lines (fair : cache.Fair weigh) {left : List (Slot κ α)} (ordered : Ordered after left)
    (charged : ∀ slot ∈ left, slot.weight = weigh slot.value) (budget : after.budget = cache.budget)
    (evictions : cache.evictions ≤ after.evictions)
    (stays : ∀ slot ∈ cache.queue, ¬ lost slot.key →
      (∃ other ∈ left, other.key = slot.key) ∨ cache.evictions < after.evictions) :
    Leaves weigh lost cache after := by
  refine ⟨ordered.fair charged, budget, evictions, fun key held unlost => ?_⟩
  obtain ⟨slot, member, rfl⟩ := (fair.orderly.contains_queue key).mp held
  have there : after.contains slot.key = true ↔ ∃ other ∈ left, other.key = slot.key := by
    rw [(Orderly.contains_queue ⟨left, ordered⟩ slot.key), ordered.queue_eq]
  rw [there]
  exact stays slot member unlost

theorem trans (early : Leaves weigh lost first second) (late : Leaves weigh lost second third) :
    Leaves weigh lost first third := by
  refine ⟨late.fair, late.budget.trans early.budget,
    Nat.le_trans early.evictions late.evictions, fun key held unlost => ?_⟩
  rcases early.stays key held unlost with still | evicted
  · rcases late.stays key still unlost with further | evicted
    · exact Or.inl further
    · exact Or.inr (Nat.lt_of_le_of_lt early.evictions evicted)
  · exact Or.inr (Nat.lt_of_lt_of_le evicted late.evictions)

/-- A key that was not cached cannot have been lost. -/
theorem narrow {few : κ → Prop} (leaves : Leaves weigh lost first second)
    (held : ∀ key, first.contains key = true → lost key → few key) :
    Leaves weigh few first second :=
  ⟨leaves.fair, leaves.budget, leaves.evictions, fun key contained unlost =>
    leaves.stays key contained (fun gone => unlost (held key contained gone))⟩

end Leaves

theorem Ordered.mem_forward {slot used : Slot κ α} (member : slot ∈ forward line used) :
    slot ∈ line ∨ slot = used := by
  rcases List.mem_append.mp member with stayed | last
  · exact Or.inl (List.mem_filter.mp stayed).1
  · exact Or.inr (List.mem_singleton.mp last)

theorem Ordered.key_forward {slot : Slot κ α} (member : slot ∈ line) (used : Slot κ α) :
    ∃ other ∈ forward line used, other.key = slot.key := by
  by_cases same : slot.key = used.key
  · exact ⟨used, List.mem_append_right _ List.mem_cons_self, same.symm⟩
  · exact ⟨slot, List.mem_append_left _ (List.mem_filter.mpr ⟨member, decide_eq_true same⟩), rfl⟩

theorem insert_kept (cache : ShardedCache κ α) (key : κ) (value : α) (weight : UInt64) :
    (cache.insert key value weight).2.budget = cache.budget ∧
      (cache.insert key value weight).2.evictions = cache.evictions := by
  rw [insert, release]
  split <;> split <;> exact ⟨rfl, rfl⟩

/-- The value is above the whole budget. -/
def Oversized (weigh : α → UInt64) (budget : UInt64) (key : κ) (value : α) (other : κ) : Prop :=
  other = key ∧ budget < weigh value

namespace Fair

variable {lost : κ → Prop}

theorem leaves_refl (fair : cache.Fair weigh) : Leaves weigh lost cache cache :=
  ⟨fair, rfl, Nat.le_refl _, fun _key cached _unlost => Or.inl cached⟩

theorem leaves_written (fair : cache.Fair weigh) (key : κ) :
    Leaves weigh lost cache (cache.onShard key Shard.written) :=
  .of_lines fair (fair.orderly.ordered_queue.written key) fair.charged rfl (Nat.le_refl _)
    (fun slot member _unlost => Or.inl ⟨slot, member, rfl⟩)

theorem leaves_get (fair : cache.Fair weigh) (key : κ) :
    Leaves weigh lost cache (cache.get key).2 := by
  have kept : (cache.get key).2.budget = cache.budget ∧
      (cache.get key).2.evictions = cache.evictions := by
    rw [ShardedCache.get]
    split <;> exact ⟨rfl, rfl⟩
  have used := fair.orderly.ordered_queue.get key
  cases found : cache.queue.find? (·.key = key) with
  | none =>
      rw [found] at used
      exact .of_lines fair used.2 fair.charged kept.1 (Nat.le_of_eq kept.2.symm)
        (fun slot member _unlost => Or.inl ⟨slot, member, rfl⟩)
  | some slot =>
      rw [found] at used
      refine .of_lines fair used.2 (fun other member => ?_) kept.1 (Nat.le_of_eq kept.2.symm)
        (fun other member _unlost => Or.inl (Ordered.key_forward member _))
      rcases Ordered.mem_forward member with stayed | rfl
      · exact fair.charged other stayed
      · exact fair.charged slot (List.mem_of_find?_eq_some found)

theorem leaves_insert (fair : cache.Fair weigh) (key : κ) (value : α) :
    Leaves weigh (Oversized weigh cache.budget key value) cache
      (cache.insert key value (weigh value)).2 := by
  have kept := cache.insert_kept key value (weigh value)
  have inserted := (fair.orderly.ordered_queue.insert key value (weigh value)).2
  by_cases fits : weigh value ≤ cache.budget
  · rw [if_pos fits] at inserted
    refine .of_lines fair inserted (fun slot member => ?_) kept.1 (Nat.le_of_eq kept.2.symm)
      (fun slot member _unlost => Or.inl (Ordered.key_forward member _))
    rcases Ordered.mem_forward member with stayed | rfl
    · exact fair.charged slot stayed
    · rfl
  · rw [if_neg fits] at inserted
    refine .of_lines fair inserted (fun slot member => fair.charged slot (List.mem_filter.mp member).1)
      kept.1 (Nat.le_of_eq kept.2.symm) (fun slot member unlost => Or.inl ⟨slot, ?_, rfl⟩)
    have differs : slot.key ≠ key := fun same => unlost ⟨same, UInt64.not_le.mp fits⟩
    exact List.mem_filter.mpr ⟨member, decide_eq_true differs⟩

theorem leaves_shrink (fair : cache.Fair weigh) : Leaves weigh lost cache cache.shrink := by
  have ordered := fair.orderly.ordered_queue
  obtain ⟨shards, used, same, shrunk⟩ := ordered.shrink
  have suffix : left cache.budget cache.queue <:+ cache.queue := trim_suffix _ _
  refine .of_lines fair shrunk (fun slot member => fair.charged slot (suffix.subset member))
    (by rw [same]) (by rw [same]; exact Nat.le_add_right ..) (fun slot member _unlost => ?_)
  by_cases stays : slot ∈ left cache.budget cache.queue
  · exact Or.inl ⟨slot, stays, rfl⟩
  · have shorter : (left cache.budget cache.queue).length < cache.queue.length := by
      refine Nat.lt_of_le_of_ne suffix.length_le (fun equal => stays ?_)
      rw [suffix.eq_of_length equal]
      exact member
    right
    rw [same]
    change cache.evictions < cache.evictions + _
    omega

theorem leaves_remove (fair : cache.Fair weigh) (key : κ) :
    Leaves weigh (· = key) cache (cache.remove key).2 := by
  have kept : (cache.remove key).2.budget = cache.budget ∧
      (cache.remove key).2.evictions = cache.evictions := by
    rw [ShardedCache.remove, ShardedCache.release]
    split <;> exact ⟨rfl, rfl⟩
  have removed := (fair.orderly.ordered_queue.written key).release key
  exact .of_lines fair removed (fun slot member => fair.charged slot (List.mem_filter.mp member).1)
    kept.1 (Nat.le_of_eq kept.2.symm) (fun slot member unlost =>
      Or.inl ⟨slot, List.mem_filter.mpr ⟨member, decide_eq_true unlost⟩, rfl⟩)

theorem leaves_clear (fair : cache.Fair weigh) : Leaves weigh (fun _ => True) cache cache.clear :=
  .of_lines fair fair.orderly.ordered_queue.clear (fun _slot impossible => nomatch impossible) rfl
    (Nat.le_refl _) (fun _slot _member unlost => absurd trivial unlost)

theorem leaves_amend (fair : cache.Fair weigh) (key : κ) {change : α → α}
    (same : ∀ value, weigh (change value) = weigh value) :
    Leaves weigh lost cache (cache.amend key change) := by
  refine .of_lines fair (fair.orderly.ordered_queue.amend key change) (fun slot member => ?_) rfl
    (Nat.le_refl _) (fun slot member _unlost => Or.inl ⟨_, List.mem_map_of_mem member, ?_⟩)
  · obtain ⟨before, inQueue, rfl⟩ := List.mem_map.mp member
    rw [weight_amendSlot, value_amendSlot, fair.charged before inQueue]
    split
    · exact (same before.value).symm
    · rfl
  · exact key_amendSlot key change _

/-- An entry is offered, and where it is taken evictions make room for it. -/
theorem leaves_settled {offered : Bool × ShardedCache κ α}
    (inserted : Leaves weigh lost cache offered.2) :
    Leaves weigh lost cache (match offered with
      | (false, after) => (false, after)
      | (true, after) => (true, after.shrink)).2 := by
  obtain ⟨taken, after⟩ := offered
  cases taken with
  | false => exact inserted
  | true => exact inserted.trans inserted.fair.leaves_shrink

theorem leaves_written_insert (fair : cache.Fair weigh) (key : κ) (value : α) :
    Leaves weigh (Oversized weigh cache.budget key value) cache
      ((cache.onShard key Shard.written).insert key value (weigh value)).2 :=
  have written : Leaves weigh (Oversized weigh cache.budget key value) cache _ :=
    fair.leaves_written key
  written.trans (written.fair.leaves_insert key value)

theorem leaves_put (fair : cache.Fair weigh) (key : κ) (value : α) :
    Leaves weigh (Oversized weigh cache.budget key value) cache (cache.put key value (weigh value)) :=
  have inserted := fair.leaves_written_insert key value
  inserted.trans inserted.fair.leaves_shrink

theorem leaves_replace (fair : cache.Fair weigh) (key : κ) (value : α) :
    Leaves weigh (Oversized weigh cache.budget key value) cache
      (cache.replace key value (weigh value)).2 := by
  rw [ShardedCache.replace]
  split
  · exact leaves_settled (fair.leaves_written_insert key value)
  · exact fair.leaves_written key

theorem leaves_fill (fair : cache.Fair weigh) (key : κ) (value : α) (noted : Nat) :
    Leaves weigh (Oversized weigh cache.budget key value) cache
      (cache.fill key value (weigh value) noted).2 := by
  rw [ShardedCache.fill]
  split
  · exact fair.leaves_refl
  · exact leaves_settled (fair.leaves_insert key value)

end Fair

/-- What has just come in is the last one to go, and alone it is within the budget. -/
theorem Orderly.fill_contains (orderly : cache.Orderly) {key : κ} {value : α} {weight : UInt64}
    (fits : weight ≤ cache.budget) :
    (cache.fill key value weight (cache.generation key)).2.contains key = true := by
  obtain ⟨taken, inserted⟩ := orderly.ordered_queue.insert key value weight
  have budget := (cache.insert_kept key value weight).1
  rw [decide_eq_true fits] at taken
  rw [if_pos fits] at inserted
  rw [ShardedCache.fill, if_neg (not_not_intro rfl)]
  rcases outcome : cache.insert key value weight with ⟨flag, after⟩
  rw [outcome] at taken inserted budget
  obtain rfl : flag = true := taken
  obtain ⟨_shards, _used, _same, shrunk⟩ := inserted.shrink
  change after.shrink.contains key = true
  rw [Orderly.contains_queue ⟨_, shrunk⟩, shrunk.queue_eq]
  refine ⟨⟨key, value, weight, cache.clock⟩, mem_trim_last _ (decide_eq_false ?_), rfl⟩
  have alone : UInt64.ofNat (load [(⟨key, value, weight, cache.clock⟩ : Slot κ α)]) = weight :=
    UInt64.ofNat_toNat
  rw [alone, show after.budget = cache.budget from budget]
  exact UInt64.not_lt.mpr fits

end ShardedCache

end BundleStore
