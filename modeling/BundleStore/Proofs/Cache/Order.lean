import BundleStore.Proofs.Cache.Values
import BundleStore.Proofs.Totals

set_option autoImplicit false

/-! The one order of use behind the shards of a cache. All slots of all shards stand in one line,
the least recently used one first; every shard keeps its part of the line backwards. The charged
weight is the weight of the line counted in 64 bits, whatever the weights are. Each operation is
said as what it does to the line. -/

namespace BundleStore

theorem Shard.weight_eq {κ α : Type} (shard : Shard κ α) :
    shard.weight = UInt64.ofNat (shard.slots.map (·.weight.toNat)).sum := by
  rw [Shard.weight]
  induction shard.slots with
  | nil => rfl
  | cons slot rest ih =>
      rw [List.foldr_cons, ih, List.map_cons, List.sum_cons, UInt64.ofNat_add, UInt64.ofNat_toNat]

namespace ShardedCache

variable {κ α : Type}

/-- What slots weigh, without a bound. -/
def load (slots : List (Slot κ α)) : Nat := (slots.map (·.weight.toNat)).sum

structure Ordered (cache : ShardedCache κ α) (line : List (Slot κ α)) : Prop where
  sharded : 0 < cache.shards.length
  shard : ∀ {index shard}, cache.shards[index]? = some shard →
    shard.slots = (line.filter (cache.home ·.key = index)).reverse
  stamped : line.Pairwise (·.stamp < ·.stamp)
  past : ∀ slot ∈ line, slot.stamp < cache.clock
  distinct : line.Pairwise (·.key ≠ ·.key)
  used : cache.used = UInt64.ofNat (load line)

theorem Ordered.new [DecidableEq κ] (budget : UInt64) (shards : Nat) (spread : κ → Nat) :
    Ordered (new budget shards spread : ShardedCache κ α) [] := by
  refine {
    sharded := length_new budget shards spread
    shard := fun {index shard} at? => ?_
    stamped := List.Pairwise.nil
    past := fun slot member => nomatch member
    distinct := List.Pairwise.nil
    used := rfl }
  have member := List.mem_of_getElem? at?
  rw [(List.mem_replicate.mp member).2]
  rfl

namespace Ordered

variable {cache : ShardedCache κ α} {line : List (Slot κ α)}

theorem slots_shardOf (ordered : Ordered cache line) (key : κ) :
    (cache.shardOf key).slots = (line.filter (cache.home ·.key = cache.home key)).reverse := by
  have within := home_lt ordered.sharded key
  rw [shardOf, List.getElem?_eq_getElem within]
  exact ordered.shard (List.getElem?_eq_getElem within)

/-! ### What the shards hold together -/

theorem sum_shards (ordered : Ordered cache line) (measure : Slot κ α → Nat) :
    (cache.shards.map (fun shard => (shard.slots.map measure).sum)).sum =
      (line.map measure).sum := by
  have listed : cache.shards.map Shard.slots = (List.range cache.shards.length).map
      (fun index => (line.filter (cache.home ·.key = index)).reverse) := by
    apply List.ext_getElem?
    intro index
    rw [List.getElem?_map, List.getElem?_map]
    cases at? : cache.shards[index]? with
    | none =>
        have beyond := List.getElem?_eq_none_iff.mp at?
        rw [List.getElem?_eq_none (by rw [List.length_range]; exact beyond)]
        rfl
    | some shard =>
        obtain ⟨within, _shard⟩ := List.getElem?_eq_some_iff.mp at?
        rw [List.getElem?_range within]
        exact congrArg some (ordered.shard at?)
  have inside : line.filter (cache.home ·.key < cache.shards.length) = line := by
    apply List.filter_eq_self.mpr
    intro slot _member
    exact decide_eq_true (home_lt ordered.sharded slot.key)
  calc (cache.shards.map (fun shard => (shard.slots.map measure).sum)).sum
      = ((cache.shards.map Shard.slots).map (fun slots => (slots.map measure).sum)).sum := by
          rw [List.map_map]
          rfl
    _ = ((List.range cache.shards.length).map (fun index =>
          ((line.filter (cache.home ·.key = index)).map measure).sum)).sum := by
          rw [listed, List.map_map]
          simp only [Function.comp_def, List.map_reverse, List.sum_reverse]
    _ = ((line.filter (cache.home ·.key < cache.shards.length)).map measure).sum :=
          sum_map_spread measure (cache.home ·.key) cache.shards.length line
    _ = (line.map measure).sum := by rw [inside]

theorem size_eq (ordered : Ordered cache line) : cache.size = line.length := by
  have counted := ordered.sum_shards (fun _slot => 1)
  simpa [size, foldr_eq_sum_map] using counted

theorem weights_eq (ordered : Ordered cache line) :
    cache.shards.foldr (fun shard sum => shard.weight + sum) 0 = cache.used := by
  have summed (shards : List (Shard κ α)) :
      shards.foldr (fun shard sum => shard.weight + sum) 0 =
        UInt64.ofNat
          (shards.map (fun shard => (shard.slots.map (·.weight.toNat)).sum)).sum := by
    induction shards with
    | nil => rfl
    | cons shard rest ih =>
        rw [List.foldr_cons, ih, List.map_cons, List.sum_cons, UInt64.ofNat_add, Shard.weight_eq]
  rw [summed, ordered.sum_shards, ordered.used, load]

/-! ### Changes to one shard -/

/-- The shard of the key is changed as the line is, and no other shard has a part in it. -/
theorem shard_onShard (ordered : Ordered cache line) (key : κ) (change : Shard κ α → Shard κ α)
    {after : List (Slot κ α)}
    (changed : ∀ before : Shard κ α,
      before.slots = (line.filter (cache.home ·.key = cache.home key)).reverse →
      (change before).slots = (after.filter (cache.home ·.key = cache.home key)).reverse)
    (others : ∀ index, index ≠ cache.home key →
      after.filter (cache.home ·.key = index) = line.filter (cache.home ·.key = index))
    {index : Nat} {shard : Shard κ α} (at? : (cache.onShard key change).shards[index]? = some shard) :
    shard.slots = (after.filter (cache.home ·.key = index)).reverse := by
  rw [onShard, List.getElem?_modify] at at?
  obtain ⟨before, found, rfl⟩ := Option.map_eq_some_iff.mp at?
  by_cases same : cache.home key = index
  · rw [if_pos same]
    rw [← same] at found ⊢
    exact changed before (ordered.shard found)
  · rw [if_neg same, others index (Ne.symm same)]
    exact ordered.shard found

/-- A shard that only counts a write holds what it held. -/
theorem written (ordered : Ordered cache line) (key : κ) :
    Ordered (cache.onShard key Shard.written) line where
  sharded := by
    rw [length_onShard]
    exact ordered.sharded
  shard := by
    intro index shard at?
    simp only [home_onShard]
    exact ordered.shard_onShard key Shard.written (fun before slots => slots)
      (fun _ _ => rfl) at?
  stamped := ordered.stamped
  past := ordered.past
  distinct := ordered.distinct
  used := ordered.used

theorem later (ordered : Ordered cache line) {after : ShardedCache κ α}
    (shards : after.shards = cache.shards) (spread : after.spread = cache.spread)
    (clock : cache.clock ≤ after.clock) (used : after.used = cache.used) : Ordered after line := by
  have home (key : κ) : after.home key = cache.home key := by
    rw [ShardedCache.home, shards, spread]
    rfl
  refine {
    sharded := shards ▸ ordered.sharded
    shard := fun {index shard} at? => ?_
    stamped := ordered.stamped
    past := fun slot member => Nat.lt_of_lt_of_le (ordered.past slot member) clock
    distinct := ordered.distinct
    used := used.trans ordered.used }
  simp only [home]
  exact ordered.shard (shards ▸ at?)

/-! ### The place of a key -/

variable [DecidableEq κ]

theorem find?_line {line : List (Slot κ α)} (distinct : line.Pairwise (·.key ≠ ·.key)) {key : κ}
    {slot : Slot κ α} : line.find? (·.key = key) = some slot ↔ slot ∈ line ∧ slot.key = key := by
  constructor
  · intro found
    have keyed := List.find?_some found
    exact ⟨List.mem_of_find?_eq_some found, of_decide_eq_true keyed⟩
  · rintro ⟨member, keyed⟩
    induction line with
    | nil => cases member
    | cons head rest ih =>
        obtain ⟨first, later⟩ := List.pairwise_cons.mp distinct
        rw [List.find?_cons]
        rcases List.mem_cons.mp member with same | after
        · rw [← same, decide_eq_true keyed]
        · have differs : head.key ≠ key := keyed ▸ first slot after
          rw [decide_eq_false differs]
          exact ih later after

theorem slot?_eq (ordered : Ordered cache line) (key : κ) :
    cache.slot? key = line.find? (·.key = key) := by
  have backwards : (cache.shardOf key).slots.Pairwise (·.key ≠ ·.key) := by
    rw [ordered.slots_shardOf key, List.pairwise_reverse]
    exact (ordered.distinct.filter _).imp (fun differs => differs.symm)
  apply Option.ext
  intro slot
  rw [find?_line ordered.distinct, slot?, Shard.slot?, find?_line backwards,
    ordered.slots_shardOf key, List.mem_reverse, List.mem_filter]
  constructor
  · rintro ⟨⟨member, _home⟩, keyed⟩
    exact ⟨member, keyed⟩
  · rintro ⟨member, keyed⟩
    exact ⟨⟨member, decide_eq_true (congrArg cache.home keyed)⟩, keyed⟩

theorem filter_home_without (key : κ) (index : Nat) (line : List (Slot κ α)) :
    (line.filter (·.key ≠ key)).filter (cache.home ·.key = index) =
      (line.filter (cache.home ·.key = index)).filter (·.key ≠ key) := by
  rw [List.filter_filter, List.filter_filter]
  congr 1
  funext slot
  exact Bool.and_comm ..

theorem filter_other_without {key : κ} {index : Nat} (other : index ≠ cache.home key)
    (line : List (Slot κ α)) :
    (line.filter (·.key ≠ key)).filter (cache.home ·.key = index) =
      line.filter (cache.home ·.key = index) := by
  rw [filter_home_without]
  apply List.filter_eq_self.mpr
  intro slot member
  have placed := of_decide_eq_true (List.mem_filter.mp member).2
  refine decide_eq_true (fun keyed => other ?_)
  rw [← placed, keyed]

theorem load_without {line : List (Slot κ α)} (distinct : line.Pairwise (·.key ≠ ·.key))
    {slot : Slot κ α} (member : slot ∈ line) :
    load (line.filter (·.key ≠ slot.key)) + slot.weight.toNat = load line := by
  induction line with
  | nil => cases member
  | cons head rest ih =>
      obtain ⟨first, later⟩ := List.pairwise_cons.mp distinct
      rcases List.mem_cons.mp member with same | after
      · have others : rest.filter (·.key ≠ slot.key) = rest := by
          apply List.filter_eq_self.mpr
          intro other inRest
          exact decide_eq_true (same ▸ (first other inRest).symm)
        have gone : (head :: rest).filter (·.key ≠ slot.key) = rest := by
          rw [List.filter_cons_of_neg (by simp [same]), others]
        rw [gone, same, load, load, List.map_cons, List.sum_cons, Nat.add_comm]
      · have stays : decide (head.key ≠ slot.key) = true := decide_eq_true (first slot after)
        have smaller := ih later after
        have kept : (head :: rest).filter (·.key ≠ slot.key) =
            head :: rest.filter (·.key ≠ slot.key) := List.filter_cons_of_pos stays
        rw [kept]
        change head.weight.toNat + load (rest.filter (·.key ≠ slot.key)) + slot.weight.toNat =
          head.weight.toNat + load rest
        rw [Nat.add_assoc, smaller]

theorem release (ordered : Ordered cache line) (key : κ) :
    Ordered (cache.release key) (line.filter (·.key ≠ key)) := by
  rw [ShardedCache.release, ordered.slot?_eq key]
  split
  · rename_i slot found
    obtain ⟨member, keyed⟩ := (find?_line ordered.distinct).mp found
    refine ⟨?_, fun {index shard} at? => ?_, ordered.stamped.filter _,
      fun other inRest => ordered.past other (List.mem_filter.mp inRest |>.1),
      ordered.distinct.filter _, ?_⟩
    · change 0 < (cache.onShard key _).shards.length
      rw [length_onShard]
      exact ordered.sharded
    · change shard.slots =
        ((line.filter (·.key ≠ key)).filter ((cache.onShard key _).home ·.key = index)).reverse
      simp only [home_onShard]
      refine ordered.shard_onShard _ _ (fun before slots => ?_)
        (fun index other => filter_other_without other line) at?
      rw [Shard.without, slots, List.filter_reverse, filter_home_without]
    · change cache.used - slot.weight = _
      rw [ordered.used, ← load_without ordered.distinct member, keyed, UInt64.ofNat_add,
        UInt64.ofNat_toNat, UInt64.add_sub_cancel]
  · rename_i absent
    have still : line.filter (·.key ≠ key) = line := by
      apply List.filter_eq_self.mpr
      intro slot member
      have differs := List.find?_eq_none.mp absent slot member
      simpa using differs
    rw [still]
    exact ordered

/-- The line after the slot of a key was used or written: the slot is the last one. -/
def forward (line : List (Slot κ α)) (slot : Slot κ α) : List (Slot κ α) :=
  line.filter (·.key ≠ slot.key) ++ [slot]

theorem load_forward (line : List (Slot κ α)) (slot : Slot κ α) :
    load (forward line slot) = load (line.filter (·.key ≠ slot.key)) + slot.weight.toNat := by
  rw [load, forward, List.map_append, List.sum_append]
  rfl

/-- The slot takes the stamp of the clock; the charged weight is for the caller to set right. -/
theorem bringForward (ordered : Ordered cache line) {slot : Slot κ α}
    (stamped : slot.stamp = cache.clock) {after : ShardedCache κ α}
    (shards : after.shards = (cache.onShard slot.key (Shard.bringForward · slot)).shards)
    (spread : after.spread = cache.spread) (clock : after.clock = cache.clock + 1)
    (used : after.used = UInt64.ofNat (load (forward line slot))) :
    Ordered after (forward line slot) := by
  have length : after.shards.length = cache.shards.length := by
    rw [shards]
    exact length_onShard ..
  have home (key : κ) : after.home key = cache.home key := by
    rw [ShardedCache.home, length, spread]
    rfl
  refine {
    sharded := length ▸ ordered.sharded
    shard := fun {index shard} at? => ?_
    stamped := ?_
    past := fun other member => ?_
    distinct := ?_
    used := used }
  · rw [shards] at at?
    simp only [home]
    refine ordered.shard_onShard _ _ (fun before slots => ?_) (fun index other => ?_) at?
    · change slot :: before.slots.filter (·.key ≠ slot.key) = _
      rw [forward, List.filter_append, List.reverse_append, filter_home_without, slots,
        List.filter_reverse]
      simp
    · have elsewhere : [slot].filter (cache.home ·.key = index) = [] :=
        List.filter_eq_nil_iff.mpr (by simp [Ne.symm other])
      rw [forward, List.filter_append, elsewhere, List.append_nil, filter_other_without other]
  · refine List.pairwise_append.mpr ⟨ordered.stamped.filter _, List.pairwise_singleton .., ?_⟩
    intro earlier member last same
    rw [List.mem_singleton.mp same, stamped]
    exact ordered.past earlier (List.mem_filter.mp member).1
  · rw [clock]
    rcases List.mem_append.mp member with inLine | last
    · exact Nat.lt_succ_of_lt (ordered.past other (List.mem_filter.mp inLine).1)
    · rw [List.mem_singleton.mp last, stamped]
      exact Nat.lt_succ_self _
  · refine List.pairwise_append.mpr ⟨ordered.distinct.filter _, List.pairwise_singleton .., ?_⟩
    intro earlier member last same
    rw [List.mem_singleton.mp same]
    exact of_decide_eq_true (List.mem_filter.mp member).2

theorem get (ordered : Ordered cache line) (key : κ) :
    match line.find? (·.key = key) with
    | some slot => (cache.get key).1 = some slot.value ∧
        Ordered (cache.get key).2 (forward line { slot with stamp := cache.clock })
    | none => (cache.get key).1 = none ∧ Ordered (cache.get key).2 line := by
  rw [ShardedCache.get, ordered.slot?_eq key]
  cases found : line.find? (·.key = key) with
  | none => exact ⟨rfl, ordered.later rfl rfl (Nat.le_succ _) rfl⟩
  | some slot =>
      obtain ⟨member, keyed⟩ := (find?_line ordered.distinct).mp found
      have weight := load_without ordered.distinct member
      refine ⟨rfl, ordered.bringForward rfl ?_ rfl rfl ?_⟩
      · change (cache.onShard key _).shards = (cache.onShard slot.key _).shards
        rw [keyed]
      · rw [load_forward]
        exact ordered.used.trans (congrArg UInt64.ofNat weight.symm)

theorem insert (ordered : Ordered cache line) (key : κ) (value : α) (weight : UInt64) :
    (cache.insert key value weight).1 = decide (weight ≤ cache.budget) ∧
      Ordered (cache.insert key value weight).2
        (if weight ≤ cache.budget then forward line ⟨key, value, weight, cache.clock⟩
          else line.filter (·.key ≠ key)) := by
  have released := ordered.release key
  rw [ShardedCache.insert]
  by_cases heavy : cache.budget < weight
  · have above : ¬weight ≤ cache.budget := fun fits => absurd heavy (UInt64.not_lt.mpr fits)
    rw [if_pos heavy, if_neg above, decide_eq_false above]
    exact ⟨rfl, released⟩
  · have fits : weight ≤ cache.budget := UInt64.not_lt.mp heavy
    rw [if_neg heavy, if_pos fits, decide_eq_true fits]
    have clock : (cache.release key).clock = cache.clock := by
      rw [ShardedCache.release]
      split <;> rfl
    have gone : (line.filter (·.key ≠ key)).filter (·.key ≠ key) = line.filter (·.key ≠ key) := by
      rw [List.filter_filter]
      simp
    have twice : forward (line.filter (·.key ≠ key)) ⟨key, value, weight, cache.clock⟩ =
        forward line ⟨key, value, weight, cache.clock⟩ := congrArg (· ++ _) gone
    refine ⟨rfl, twice ▸ released.bringForward clock.symm rfl rfl rfl ?_⟩
    rw [load_forward, gone, UInt64.ofNat_add, UInt64.ofNat_toNat]
    exact congrArg (· + weight) released.used

end Ordered

/-! ### Taking the oldest slots away -/

/-- One shard more is looked at. -/
def older (found : Option (Nat × Slot κ α)) : Shard κ α × Nat → Option (Nat × Slot κ α)
  | (shard, index) =>
      match shard.slots.getLast?, found with
      | none, _ => found
      | some slot, none => some (index, slot)
      | some slot, some (_, older) => if slot.stamp < older.stamp then some (index, slot) else found

theorem older_empty {shard : Shard κ α} (empty : shard.slots.getLast? = none)
    (found : Option (Nat × Slot κ α)) (index : Nat) : older found (shard, index) = found := by
  simp only [older, empty]

theorem older_first {shard : Shard κ α} {slot : Slot κ α} (last : shard.slots.getLast? = some slot)
    (index : Nat) : older none (shard, index) = some (index, slot) := by
  simp only [older, last]

theorem older_next {shard : Shard κ α} {slot : Slot κ α} (last : shard.slots.getLast? = some slot)
    (entry : Nat × Slot κ α) (index : Nat) : older (some entry) (shard, index) =
      if slot.stamp < entry.2.stamp then some (index, slot) else some entry := by
  simp only [older, last]

theorem oldest?_eq (shards : List (Shard κ α)) :
    oldest? shards = shards.zipIdx.foldl older none := rfl

theorem foldl_older_keeps {shards : List (Shard κ α)} {index : Nat} {slot : Slot κ α}
    (younger : ∀ shard ∈ shards, ∀ last, shard.slots.getLast? = some last →
      slot.stamp < last.stamp) (start : Nat) :
    (shards.zipIdx start).foldl older (some (index, slot)) = some (index, slot) := by
  induction shards generalizing start with
  | nil => rfl
  | cons shard rest ih =>
      have kept : older (some (index, slot)) (shard, start) = some (index, slot) := by
        cases last? : shard.slots.getLast? with
        | none => exact older_empty last? _ start
        | some last =>
            rw [older_next last?]
            exact if_neg (Nat.lt_asymm (younger shard (List.mem_cons_self ..) last last?))
      rw [List.zipIdx_cons, List.foldl_cons, kept]
      exact ih (fun other member => younger other (List.mem_cons_of_mem _ member)) (start + 1)

/-- A slot that is older than what was found is found. -/
theorem older_takes {shard : Shard κ α} {slot : Slot κ α} (last : shard.slots.getLast? = some slot)
    (index : Nat) {found : Option (Nat × Slot κ α)}
    (before : ∀ entry, found = some entry → slot.stamp < entry.2.stamp) :
    older found (shard, index) = some (index, slot) := by
  cases found with
  | none => exact older_first last index
  | some entry =>
      rw [older_next last]
      exact if_pos (before entry rfl)

/-- What is found stays younger than a slot that the last one of the shard is younger than. -/
theorem older_younger {shard : Shard κ α} {slot : Slot κ α}
    (after : ∀ late, shard.slots.getLast? = some late → slot.stamp < late.stamp) (index : Nat)
    {found : Option (Nat × Slot κ α)}
    (before : ∀ entry, found = some entry → slot.stamp < entry.2.stamp) :
    ∀ entry, older found (shard, index) = some entry → slot.stamp < entry.2.stamp := by
  intro entry chosen
  cases last : shard.slots.getLast? with
  | none =>
      rw [older_empty last] at chosen
      exact before entry chosen
  | some late =>
      cases found with
      | none =>
          rw [older_first last] at chosen
          cases chosen
          exact after late last
      | some earlier =>
          rw [older_next last] at chosen
          split at chosen
          · cases chosen
            exact after late last
          · exact before entry chosen

/-- The oldest of all last slots is found, whatever younger one was found before. -/
theorem foldl_older {shards : List (Shard κ α)} {index : Nat} {shard : Shard κ α} {slot : Slot κ α}
    (at? : shards[index]? = some shard) (last : shard.slots.getLast? = some slot)
    (younger : ∀ other elsewhere, shards[other]? = some elsewhere → other ≠ index →
      ∀ late, elsewhere.slots.getLast? = some late → slot.stamp < late.stamp)
    (start : Nat) {found : Option (Nat × Slot κ α)}
    (before : ∀ entry, found = some entry → slot.stamp < entry.2.stamp) :
    (shards.zipIdx start).foldl older found = some (start + index, slot) := by
  induction shards generalizing index start found with
  | nil => cases at?
  | cons head rest ih =>
      rw [List.zipIdx_cons, List.foldl_cons]
      cases index with
      | zero =>
          obtain rfl : head = shard := Option.some.inj at?
          rw [older_takes last start before, Nat.add_zero]
          refine foldl_older_keeps (fun other member late lastOther => ?_) (start + 1)
          obtain ⟨place, placed⟩ := List.getElem?_of_mem member
          exact younger (place + 1) other placed (Nat.succ_ne_zero place) late lastOther
      | succ index =>
          have stillBefore := older_younger (younger 0 head rfl (Nat.succ_ne_zero index).symm) start
            before
          have later := ih at? (fun other elsewhere placed differs =>
            younger (other + 1) elsewhere placed (fun same => differs (Nat.succ.inj same)))
            (start + 1) stillBefore
          rw [later, Nat.add_right_comm, Nat.add_assoc]

/-- What is left of the line when the oldest slots went as long as the charged weight was above the
budget. -/
def left (budget : UInt64) (line : List (Slot κ α)) : List (Slot κ α) :=
  trim (fun rest => decide (budget < UInt64.ofNat (load rest))) line

namespace Ordered

variable {cache : ShardedCache κ α} {line : List (Slot κ α)}

theorem evictOldest?_nil (ordered : Ordered cache []) : cache.evictOldest? = none := by
  have nothing : oldest? cache.shards = none := by
    rw [oldest?_eq]
    refine List.foldlRecOn (motive := (· = none)) _ older rfl (fun found none' entry member => ?_)
    obtain ⟨shard, index⟩ := entry
    have slots := ordered.shard (List.mem_zipIdx_iff_getElem?.mp member)
    rw [older_empty (by rw [slots]; rfl)]
    exact none'
  rw [evictOldest?, nothing]
  rfl

theorem part_own (oldest : Slot κ α) (rest : List (Slot κ α)) :
    (oldest :: rest).filter (cache.home ·.key = cache.home oldest.key) =
      oldest :: rest.filter (cache.home ·.key = cache.home oldest.key) :=
  List.filter_cons_of_pos (decide_eq_true rfl)

theorem part_other {oldest : Slot κ α} {index : Nat} (other : index ≠ cache.home oldest.key)
    (rest : List (Slot κ α)) :
    (oldest :: rest).filter (cache.home ·.key = index) = rest.filter (cache.home ·.key = index) :=
  List.filter_cons_of_neg (fun same => other (of_decide_eq_true same).symm)

/-- The first of the line is found among the last slots of all shards. -/
theorem oldest?_cons {oldest : Slot κ α} {rest : List (Slot κ α)}
    (ordered : Ordered cache (oldest :: rest)) :
    oldest? cache.shards = some (cache.home oldest.key, oldest) := by
  obtain ⟨first, _stamped⟩ := List.pairwise_cons.mp ordered.stamped
  have placed := List.getElem?_eq_getElem (home_lt ordered.sharded oldest.key)
  -- The last slot of a shard is the first of its part of the line.
  have lastOf {index : Nat} {shard : Shard κ α} (at? : cache.shards[index]? = some shard) :
      shard.slots.getLast? = ((oldest :: rest).filter (cache.home ·.key = index)).head? := by
    rw [ordered.shard at?, List.getLast?_reverse]
  rw [oldest?_eq, ← Nat.zero_add (cache.home oldest.key)]
  refine foldl_older placed ?_ (fun index elsewhere at? differs late lastOther => ?_) 0
    (fun entry impossible => nomatch impossible)
  · rw [lastOf placed, part_own]
    rfl
  · rw [lastOf at?, part_other differs] at lastOther
    have member := List.mem_of_mem_head? (Option.mem_def.mpr lastOther)
    exact first late (List.mem_filter.mp member).1

theorem evictOldest?_cons {oldest : Slot κ α} {rest : List (Slot κ α)}
    (ordered : Ordered cache (oldest :: rest)) : ∃ shards,
      cache.evictOldest? = some { cache with
        shards
        used := cache.used - oldest.weight
        evictions := cache.evictions + 1 } ∧
      Ordered { cache with
        shards
        used := cache.used - oldest.weight
        evictions := cache.evictions + 1 } rest := by
  obtain ⟨_first, stamped⟩ := List.pairwise_cons.mp ordered.stamped
  let change (shard : Shard κ α) : Shard κ α := { shard with slots := shard.slots.dropLast }
  refine ⟨cache.shards.modify (cache.home oldest.key) change, ?_, ?_⟩
  · rw [evictOldest?, ordered.oldest?_cons]
    rfl
  have length : (cache.shards.modify (cache.home oldest.key) change).length =
      cache.shards.length := List.length_modify ..
  refine {
    sharded := length.symm ▸ ordered.sharded
    shard := fun {index shard} at? => ?_
    stamped
    past := fun slot member => ordered.past slot (List.mem_cons_of_mem _ member)
    distinct := (List.pairwise_cons.mp ordered.distinct).2
    used := ?_ }
  · change shard.slots = (rest.filter (fun slot => decide (cache.spread slot.key %
      (cache.shards.modify (cache.home oldest.key) change).length = index))).reverse
    rw [length]
    refine ordered.shard_onShard oldest.key change (fun before slots => ?_)
      (fun index other => (part_other other rest).symm) at?
    change before.slots.dropLast = _
    rw [slots, List.dropLast_reverse, part_own]
    rfl
  · change cache.used - oldest.weight = _
    rw [ordered.used, load, List.map_cons, List.sum_cons, Nat.add_comm, UInt64.ofNat_add,
      UInt64.ofNat_toNat, UInt64.add_sub_cancel]
    rfl

theorem shrinkBy (ordered : Ordered cache line) {bound : Nat} (enough : line.length ≤ bound) :
    ∃ shards used,
      ShardedCache.shrinkBy bound cache = { cache with
        shards, used
        evictions := cache.evictions + (line.length - (left cache.budget line).length) } ∧
      Ordered (ShardedCache.shrinkBy bound cache) (left cache.budget line) := by
  induction bound generalizing cache line with
  | zero =>
      have none : line = [] := List.length_eq_zero_iff.mp (Nat.le_zero.mp enough)
      subst none
      exact ⟨cache.shards, cache.used, rfl, ordered⟩
  | succ bound ih =>
      rw [ShardedCache.shrinkBy, ordered.used]
      by_cases above : cache.budget < UInt64.ofNat (load line)
      · rw [if_pos above]
        cases line with
        | nil =>
            rw [ordered.evictOldest?_nil]
            exact ⟨cache.shards, cache.used, rfl, ordered⟩
        | cons oldest rest =>
            obtain ⟨shards, evicted, smaller⟩ := ordered.evictOldest?_cons
            obtain ⟨shards', used', same, kept⟩ := ih smaller (Nat.le_of_succ_le_succ enough)
            have counted : (left cache.budget rest).length ≤ rest.length :=
              (trim_suffix _ rest).length_le
            have gone : left cache.budget (oldest :: rest) = left cache.budget rest := by
              rw [left, trim, if_pos (decide_eq_true above), left]
            rw [evicted, gone]
            refine ⟨shards', used', same.trans ?_, kept⟩
            simp only [List.length_cons, mk.injEq, true_and]
            omega
      · have whole : left cache.budget line = line := trim_eq_self (decide_eq_false above)
        rw [if_neg above, whole, Nat.sub_self]
        exact ⟨cache.shards, cache.used, rfl, ordered⟩

/-- Shrinking has enough steps to come down to the budget, and counts what it takes away. -/
theorem shrink (ordered : Ordered cache line) :
    ∃ shards used,
      cache.shrink = { cache with
        shards, used
        evictions := cache.evictions + (line.length - (left cache.budget line).length) } ∧
      Ordered cache.shrink (left cache.budget line) :=
  ordered.shrinkBy (Nat.le_of_eq ordered.size_eq.symm)

/-! ### Clearing and amending -/

theorem clear (ordered : Ordered cache line) : Ordered cache.clear [] where
  sharded := by
    change 0 < (cache.shards.map _).length
    rw [List.length_map]
    exact ordered.sharded
  shard := by
    intro index shard at?
    rw [ShardedCache.clear, List.getElem?_map] at at?
    obtain ⟨before, _found, rfl⟩ := Option.map_eq_some_iff.mp at?
    rfl
  stamped := List.Pairwise.nil
  past := fun _ member => nomatch member
  distinct := List.Pairwise.nil
  used := by
    change cache.used - _ = 0
    rw [ordered.weights_eq, UInt64.sub_self]

/-- The slots of an amended line are at home where they were. -/
theorem filter_home_amendSlot [DecidableEq κ] (key : κ) (change : α → α) (index : Nat) :
    (line.map (amendSlot key change)).filter (cache.home ·.key = index) =
      (line.filter (cache.home ·.key = index)).map (amendSlot key change) := by
  rw [List.filter_map]
  congr 2
  funext slot
  rw [Function.comp_apply, key_amendSlot]

/-- Slots that are not at home with the key are not amended. -/
theorem map_amendSlot_elsewhere [DecidableEq κ] {key : κ} (change : α → α) {index : Nat}
    (other : index ≠ cache.home key) :
    (line.filter (cache.home ·.key = index)).map (amendSlot key change) =
      line.filter (cache.home ·.key = index) := by
  have untouched : ∀ slot ∈ line.filter (cache.home ·.key = index),
      amendSlot key change slot = id slot := by
    intro slot member
    have placed := of_decide_eq_true (List.mem_filter.mp member).2
    have differs : slot.key ≠ key := fun same => other (by rw [← placed, same])
    exact if_neg differs
  rw [List.map_congr_left untouched, List.map_id]

theorem amend [DecidableEq κ] (ordered : Ordered cache line) (key : κ) (change : α → α) :
    Ordered (cache.amend key change) (line.map (amendSlot key change)) := by
  rw [amend_eq]
  refine {
    sharded := ?_
    shard := fun {index shard} at? => ?_
    stamped := ?_
    past := fun slot member => ?_
    distinct := ?_
    used := ?_ }
  · rw [length_onShard]
    exact ordered.sharded
  · simp only [home_onShard]
    refine ordered.shard_onShard _ _ (fun before slots => ?_) (fun index other => ?_) at?
    · change before.slots.map (amendSlot key change) = _
      rw [slots, List.map_reverse, filter_home_amendSlot]
    · rw [filter_home_amendSlot, map_amendSlot_elsewhere change other]
  · refine List.pairwise_map.mpr (ordered.stamped.imp (fun before => ?_))
    rw [stamp_amendSlot, stamp_amendSlot]
    exact before
  · obtain ⟨before, inLine, rfl⟩ := List.mem_map.mp member
    rw [stamp_amendSlot]
    exact ordered.past before inLine
  · refine List.pairwise_map.mpr (ordered.distinct.imp (fun differs => ?_))
    rw [key_amendSlot, key_amendSlot]
    exact differs
  · change cache.used = _
    rw [ordered.used, load, load, List.map_map]
    simp only [Function.comp_def, weight_amendSlot]

end Ordered

/-! ### Any budget -/

/-- Some line explains what the shards hold and what is charged. This is kept whatever the weights
and the budgets are, also where the charge has run over. -/
def Orderly (cache : ShardedCache κ α) : Prop := ∃ line, cache.Ordered line

namespace Orderly

variable {cache : ShardedCache κ α}

theorem shrink (orderly : cache.Orderly) : cache.shrink.Orderly := by
  obtain ⟨line, ordered⟩ := orderly
  obtain ⟨_shards, _used, _same, shrunk⟩ := ordered.shrink
  exact ⟨_, shrunk⟩

theorem written (orderly : cache.Orderly) (key : κ) :
    (cache.onShard key Shard.written).Orderly := by
  obtain ⟨line, ordered⟩ := orderly
  exact ⟨line, ordered.written key⟩

theorem clear (orderly : cache.Orderly) : cache.clear.Orderly := by
  obtain ⟨line, ordered⟩ := orderly
  exact ⟨[], ordered.clear⟩

theorem nothing_of_clear (orderly : cache.Orderly) :
    cache.clear.size = 0 ∧ cache.clear.used = 0 := by
  obtain ⟨line, ordered⟩ := orderly
  exact ⟨ordered.clear.size_eq, ordered.clear.used⟩

variable [DecidableEq κ]

theorem get (orderly : cache.Orderly) (key : κ) : (cache.get key).2.Orderly := by
  obtain ⟨line, ordered⟩ := orderly
  have used := ordered.get key
  cases found : line.find? (·.key = key) with
  | none =>
      rw [found] at used
      exact ⟨line, used.2⟩
  | some slot =>
      rw [found] at used
      exact ⟨_, used.2⟩

theorem insert (orderly : cache.Orderly) (key : κ) (value : α) (weight : UInt64) :
    (cache.insert key value weight).2.Orderly := by
  obtain ⟨line, ordered⟩ := orderly
  exact ⟨_, (ordered.insert key value weight).2⟩

theorem put (orderly : cache.Orderly) (key : κ) (value : α) (weight : UInt64) :
    (cache.put key value weight).Orderly :=
  ((orderly.written key).insert key value weight).shrink

theorem replace (orderly : cache.Orderly) (key : κ) (value : α) (weight : UInt64) :
    (cache.replace key value weight).2.Orderly := by
  have written := orderly.written key
  have inserted := written.insert key value weight
  rw [ShardedCache.replace]
  split
  · split
    · rename_i same
      rw [same] at inserted
      exact inserted
    · rename_i same
      rw [same] at inserted
      exact inserted.shrink
  · exact written

theorem fill (orderly : cache.Orderly) (key : κ) (value : α) (weight : UInt64) (noted : Nat) :
    (cache.fill key value weight noted).2.Orderly := by
  have inserted := orderly.insert key value weight
  rw [ShardedCache.fill]
  split
  · exact orderly
  · split
    · rename_i same
      rw [same] at inserted
      exact inserted
    · rename_i same
      rw [same] at inserted
      exact inserted.shrink

theorem remove (orderly : cache.Orderly) (key : κ) : (cache.remove key).2.Orderly := by
  obtain ⟨line, ordered⟩ := orderly.written key
  exact ⟨_, ordered.release key⟩

theorem amend (orderly : cache.Orderly) (key : κ) (change : α → α) :
    (cache.amend key change).Orderly := by
  obtain ⟨line, ordered⟩ := orderly
  exact ⟨_, ordered.amend key change⟩

end Orderly

end ShardedCache

end BundleStore
