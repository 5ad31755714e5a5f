import BundleStore.Proofs.Cache.Order
import Mathlib.Algebra.Group.Nat.Defs

set_option autoImplicit false

/-! A cache as one list, the least recently used entry first, and why the sharded cache cannot be
told from it. The list knows no shards, no stamps, no running sum and no write counts: it weighs
its entries anew each time, with numbers that do not overflow. -/

namespace BundleStore

/-- What a cache counts. -/
structure Tally where
  size : Nat
  used : Nat
  hits : Nat
  misses : Nat
  evictions : Nat
deriving DecidableEq

inductive CacheUse (κ α : Type) where
  | get (key : κ)
  | contains (key : κ)
  | weight (key : κ)
  | put (key : κ) (value : α) (weight : UInt64)
  | replace (key : κ) (value : α) (weight : UInt64)
  | fill (key : κ) (value : α) (weight : UInt64) (noted : Nat)
  | remove (key : κ)
  | clear
  | setBudget (budget : UInt64)

inductive CacheAnswer (α : Type) where
  | value (found : Option α)
  | flag (outcome : Bool)
  | weight (charged : Option UInt64)
  | done
deriving DecidableEq

structure Held (κ α : Type) where
  key : κ
  value : α
  weight : UInt64

structure RecencyList (κ α : Type) where
  /-- The least recently used entry comes first. -/
  held : List (Held κ α)
  budget : UInt64
  hits : Nat
  misses : Nat
  evictions : Nat

namespace RecencyList

variable {κ α : Type}

def new (budget : UInt64) : RecencyList κ α := ⟨[], budget, 0, 0, 0⟩

def load (held : List (Held κ α)) : Nat := (held.map (·.weight.toNat)).sum

def tally (list : RecencyList κ α) : Tally :=
  ⟨list.held.length, load list.held, list.hits, list.misses, list.evictions⟩

/-- Entries go from the oldest end, one by one, just until the rest is within the budget. -/
def settle (list : RecencyList κ α) : RecencyList κ α :=
  let kept := trim (fun rest => decide (list.budget.toNat < load rest)) list.held
  { list with held := kept, evictions := list.evictions + (list.held.length - kept.length) }

variable [DecidableEq κ]

def held? (list : RecencyList κ α) (key : κ) : Option (Held κ α) := list.held.find? (·.key = key)

def without (list : RecencyList κ α) (key : κ) : RecencyList κ α :=
  { list with held := list.held.filter (·.key ≠ key) }

/-- The entry stands at the most recent end and nowhere else. -/
def forward (list : RecencyList κ α) (entry : Held κ α) : RecencyList κ α :=
  { list with held := list.held.filter (·.key ≠ entry.key) ++ [entry] }

/-- An entry heavier than the budget is dropped together with the old entry of its key. -/
def insert (list : RecencyList κ α) (entry : Held κ α) : RecencyList κ α :=
  if entry.weight ≤ list.budget then (list.forward entry).settle else list.without entry.key

def serve (list : RecencyList κ α) : CacheUse κ α → CacheAnswer α × RecencyList κ α
  | .get key =>
      match list.held? key with
      | some entry => (.value entry.value, { list.forward entry with hits := list.hits + 1 })
      | none => (.value none, { list with misses := list.misses + 1 })
  | .contains key => (.flag (list.held? key).isSome, list)
  | .weight key => (.weight ((list.held? key).map (·.weight)), list)
  | .put key value weight => (.done, list.insert ⟨key, value, weight⟩)
  | .replace key value weight =>
      if (list.held? key).isSome then
        (.flag (weight ≤ list.budget), list.insert ⟨key, value, weight⟩)
      else (.flag false, list)
  | .fill key value weight _ => (.flag (weight ≤ list.budget), list.insert ⟨key, value, weight⟩)
  | .remove key => (.value ((list.held? key).map (·.value)), list.without key)
  | .clear => (.done, { list with held := [] })
  | .setBudget budget => (.done, { list with budget }.settle)

def after (list : RecencyList κ α) (uses : List (CacheUse κ α)) : RecencyList κ α :=
  uses.foldl (fun list use => (list.serve use).2) list

/-- What is seen of the list: each answer and the counts after it. -/
def trace (list : RecencyList κ α) : List (CacheUse κ α) → List (CacheAnswer α × Tally)
  | [] => []
  | use :: rest =>
      ((list.serve use).1, (list.serve use).2.tally) :: (list.serve use).2.trace rest

end RecencyList

namespace ShardedCache

variable {κ α : Type} [DecidableEq κ]

def tally (cache : ShardedCache κ α) : Tally :=
  ⟨cache.size, cache.used.toNat, cache.hits, cache.misses, cache.evictions⟩

def serve (cache : ShardedCache κ α) : CacheUse κ α → CacheAnswer α × ShardedCache κ α
  | .get key => (.value (cache.get key).1, (cache.get key).2)
  | .contains key => (.flag (cache.contains key), cache)
  | .weight key => (.weight (cache.weight? key), cache)
  | .put key value weight => (.done, cache.put key value weight)
  | .replace key value weight =>
      (.flag (cache.replace key value weight).1, (cache.replace key value weight).2)
  | .fill key value weight noted =>
      (.flag (cache.fill key value weight noted).1, (cache.fill key value weight noted).2)
  | .remove key => (.value (cache.remove key).1, (cache.remove key).2)
  | .clear => (.done, cache.clear)
  | .setBudget budget => (.done, cache.setBudget budget)

def after (cache : ShardedCache κ α) (uses : List (CacheUse κ α)) : ShardedCache κ α :=
  uses.foldl (fun cache use => (cache.serve use).2) cache

def trace (cache : ShardedCache κ α) : List (CacheUse κ α) → List (CacheAnswer α × Tally)
  | [] => []
  | use :: rest =>
      ((cache.serve use).1, (cache.serve use).2.tally) :: (cache.serve use).2.trace rest

/-- What a replacement and a fill come to once they are let through. -/
def offer (cache : ShardedCache κ α) (key : κ) (value : α) (weight : UInt64) :
    Bool × ShardedCache κ α :=
  match cache.insert key value weight with
  | (false, cache) => (false, cache)
  | (true, cache) => (true, cache.shrink)

end ShardedCache

/-- A budget leaves half of the numbers free, and a fill comes with the write count of now. -/
def CacheUse.Fit {κ α : Type} (cache : ShardedCache κ α) : CacheUse κ α → Prop
  | .fill key _ _ noted => cache.generation key = noted
  | .setBudget budget => budget.toNat < 2 ^ 63
  | _ => True

/-- Counts as a write to the shard of the key. -/
def CacheUse.Writes {κ α : Type} (home : κ → Nat) (key : κ) : CacheUse κ α → Prop
  | .put other _ _ => home other = home key
  | .replace other _ _ => home other = home key
  | .remove other => home other = home key
  | .clear => True
  | _ => False

/-- Every fill comes with a write count read since the last write to its shard. -/
def ShardedCache.Timely {κ α : Type} [DecidableEq κ] (cache : ShardedCache κ α)
    (uses : List (CacheUse κ α)) : Prop :=
  ∀ before key value weight noted later,
    uses = before ++ CacheUse.fill key value weight noted :: later →
    ∃ earlier since, before = earlier ++ since ∧ (cache.after earlier).generation key = noted ∧
      ∀ use ∈ since, ¬use.Writes cache.home key

def Slot.held {κ α : Type} (slot : Slot κ α) : Held κ α := ⟨slot.key, slot.value, slot.weight⟩

section

variable {κ α : Type} {cache : ShardedCache κ α} {list : RecencyList κ α} {line : List (Slot κ α)}

/-- The list is the line of the cache without stamps, and both have counted the same. -/
structure ShardedCache.Shows (cache : ShardedCache κ α) (list : RecencyList κ α)
    (line : List (Slot κ α)) : Prop where
  ordered : cache.Ordered line
  held : list.held = line.map Slot.held
  budget : list.budget = cache.budget
  hits : list.hits = cache.hits
  misses : list.misses = cache.misses
  evictions : list.evictions = cache.evictions

/-- Between two uses the weight is within the budget, and the budget leaves room for one more entry
before the 64 bits of the charged weight are full. -/
structure ShardedCache.Mirrors (cache : ShardedCache κ α) (list : RecencyList κ α) : Prop where
  shows : ∃ line, cache.Shows list line
  small : cache.budget.toNat < 2 ^ 63
  fits : RecencyList.load list.held ≤ cache.budget.toNat

theorem load_held (line : List (Slot κ α)) :
    RecencyList.load (line.map Slot.held) = ShardedCache.load line := by
  rw [RecencyList.load, ShardedCache.load, List.map_map]
  rfl

namespace ShardedCache

theorem Mirrors.new [DecidableEq κ] {budget : UInt64} (small : budget.toNat < 2 ^ 63)
    (shards : Nat) (spread : κ → Nat) :
    Mirrors (new budget shards spread : ShardedCache κ α) (RecencyList.new budget) where
  shows := ⟨[], Ordered.new budget shards spread, rfl, rfl, rfl, rfl, rfl⟩
  small
  fits := Nat.zero_le _

namespace Shows

theorem used (shows : cache.Shows list line) (room : RecencyList.load list.held < 2 ^ 64) :
    cache.used.toNat = RecencyList.load list.held := by
  rw [shows.held, load_held] at room ⊢
  rw [shows.ordered.used]
  exact UInt64.toNat_ofNat_of_lt' room

/-- While nothing overflows, shrinking takes away what the list lets go. -/
theorem shrink (shows : cache.Shows list line) (small : cache.budget.toNat < 2 ^ 63)
    (room : RecencyList.load list.held < 2 ^ 64) : cache.shrink.Mirrors list.settle := by
  obtain ⟨shards, charged, same, ordered⟩ := shows.ordered.shrink
  have exact' : left cache.budget line =
      trim (fun rest => decide (list.budget.toNat < RecencyList.load (rest.map Slot.held))) line := by
    apply trim_congr
    intro rest suffix
    have lighter : load rest ≤ load line := by
      obtain ⟨before, whole⟩ := suffix
      rw [← whole, load, load, List.map_append, List.sum_append]
      exact Nat.le_add_left ..
    rw [shows.held, load_held] at room
    have counted : (UInt64.ofNat (load rest)).toNat = load rest :=
      UInt64.toNat_ofNat_of_lt' (Nat.lt_of_le_of_lt lighter room)
    apply decide_eq_decide.mpr
    rw [UInt64.lt_iff_toNat_lt, counted, load_held, shows.budget]
  have kept : (trim (fun rest => decide (list.budget.toNat < RecencyList.load rest)) list.held) =
      (left cache.budget line).map Slot.held := by
    rw [shows.held, trim_map, exact']
  refine ⟨⟨left cache.budget line, ordered, kept, ?_, ?_, ?_, ?_⟩, ?_, ?_⟩
  · rw [same]
    exact shows.budget
  · rw [same]
    exact shows.hits
  · rw [same]
    exact shows.misses
  · rw [same]
    change list.evictions + (list.held.length - List.length _) = _
    rw [kept, shows.held, List.length_map, List.length_map, shows.evictions]
  · rw [same]
    exact small
  · have fits := trim_fits (fun rest => decide (list.budget.toNat < RecencyList.load rest))
      list.held (decide_eq_false (Nat.not_lt_zero _))
    rw [same]
    exact shows.budget ▸ Nat.le_of_not_lt (of_decide_eq_false fits)

theorem written (shows : cache.Shows list line) (key : κ) :
    (cache.onShard key Shard.written).Shows list line :=
  { shows with ordered := shows.ordered.written key }

variable [DecidableEq κ]

theorem held? (shows : cache.Shows list line) (key : κ) :
    list.held? key = (cache.slot? key).map Slot.held := by
  rw [RecencyList.held?, shows.held, List.find?_map, shows.ordered.slot?_eq key]
  rfl

theorem filter (shows : cache.Shows list line) (key : κ) :
    list.held.filter (·.key ≠ key) = (line.filter (·.key ≠ key)).map Slot.held := by
  rw [shows.held, List.filter_map]
  rfl

theorem release (shows : cache.Shows list line) (key : κ) :
    (cache.release key).Shows (list.without key) (line.filter (·.key ≠ key)) := by
  have counts : (cache.release key).budget = cache.budget ∧ (cache.release key).hits = cache.hits ∧
      (cache.release key).misses = cache.misses ∧
      (cache.release key).evictions = cache.evictions := by
    rw [ShardedCache.release]
    split <;> exact ⟨rfl, rfl, rfl, rfl⟩
  obtain ⟨budget, hits, misses, evictions⟩ := counts
  exact {
    ordered := shows.ordered.release key
    held := shows.filter key
    budget := shows.budget.trans budget.symm
    hits := shows.hits.trans hits.symm
    misses := shows.misses.trans misses.symm
    evictions := shows.evictions.trans evictions.symm }

/-- The entry is put in, and the budget is not looked at yet. -/
theorem insert (shows : cache.Shows list line) (key : κ) (value : α) {weight : UInt64}
    (fits : weight ≤ cache.budget) :
    (cache.insert key value weight).2.Shows (list.forward ⟨key, value, weight⟩)
      (Ordered.forward line ⟨key, value, weight, cache.clock⟩) := by
  have released := shows.release key
  have ordered := (shows.ordered.insert key value weight).2
  rw [if_pos fits] at ordered
  have kept : list.held.filter (·.key ≠ key) ++ [⟨key, value, weight⟩] =
      (Ordered.forward line ⟨key, value, weight, cache.clock⟩).map Slot.held := by
    rw [Ordered.forward, List.map_append, shows.filter key]
    rfl
  rw [ShardedCache.insert, if_neg (UInt64.not_lt.mpr fits)] at ordered ⊢
  exact {
    ordered
    held := kept
    budget := released.budget
    hits := released.hits
    misses := released.misses
    evictions := released.evictions }

end Shows

namespace Mirrors

theorem written (mirrors : cache.Mirrors list) (key : κ) :
    (cache.onShard key Shard.written).Mirrors list := by
  obtain ⟨line, shows⟩ := mirrors.shows
  exact ⟨⟨line, shows.written key⟩, mirrors.small, mirrors.fits⟩

theorem shrink (mirrors : cache.Mirrors list) : cache.shrink.Mirrors list := by
  obtain ⟨line, shows⟩ := mirrors.shows
  have room : RecencyList.load list.held < 2 ^ 64 :=
    Nat.lt_of_le_of_lt mirrors.fits (Nat.lt_trans mirrors.small (by decide))
  have whole : trim (fun rest => decide (list.budget.toNat < RecencyList.load rest)) list.held =
      list.held :=
    trim_eq_self (decide_eq_false (shows.budget ▸ Nat.not_lt.mpr mirrors.fits))
  have settled := shows.shrink mirrors.small room
  rw [RecencyList.settle, whole, Nat.sub_self] at settled
  exact settled

theorem tally (mirrors : cache.Mirrors list) : cache.tally = list.tally := by
  obtain ⟨line, shows⟩ := mirrors.shows
  have room : RecencyList.load list.held < 2 ^ 64 :=
    Nat.lt_of_le_of_lt mirrors.fits (Nat.lt_trans mirrors.small (by decide))
  have size : cache.size = list.held.length := by
    rw [shows.ordered.size_eq, shows.held, List.length_map]
  rw [ShardedCache.tally, RecencyList.tally, size, shows.used room, shows.hits, shows.misses,
    shows.evictions]

theorem clear (mirrors : cache.Mirrors list) : cache.clear.Mirrors { list with held := [] } := by
  obtain ⟨line, shows⟩ := mirrors.shows
  exact ⟨⟨[], shows.ordered.clear, rfl, shows.budget, shows.hits, shows.misses, shows.evictions⟩,
    mirrors.small, Nat.zero_le _⟩

theorem setBudget (mirrors : cache.Mirrors list) {budget : UInt64}
    (small : budget.toNat < 2 ^ 63) :
    (cache.setBudget budget).Mirrors { list with budget }.settle := by
  obtain ⟨line, shows⟩ := mirrors.shows
  have room : RecencyList.load list.held < 2 ^ 64 :=
    Nat.lt_of_le_of_lt mirrors.fits (Nat.lt_trans mirrors.small (by decide))
  have changed : Shows { cache with budget } { list with budget } line := {
    ordered := shows.ordered.later rfl rfl (Nat.le_refl _) rfl
    held := shows.held
    budget := rfl
    hits := shows.hits
    misses := shows.misses
    evictions := shows.evictions }
  exact changed.shrink small room

variable [DecidableEq κ]

theorem load_without_le (list : RecencyList κ α) (key : κ) :
    RecencyList.load (list.held.filter (·.key ≠ key)) ≤ RecencyList.load list.held := by
  exact sum_map_le_of_sublist (fun entry : Held κ α => entry.weight.toNat) List.filter_sublist

theorem release (mirrors : cache.Mirrors list) (key : κ) :
    (cache.release key).Mirrors (list.without key) := by
  obtain ⟨line, shows⟩ := mirrors.shows
  have released := shows.release key
  have budget : (cache.release key).budget = cache.budget := released.budget.symm.trans shows.budget
  exact ⟨⟨_, released⟩, budget ▸ mirrors.small,
    budget ▸ Nat.le_trans (load_without_le list key) mirrors.fits⟩

theorem insert_light (mirrors : cache.Mirrors list) (key : κ) (value : α) {weight : UInt64}
    (fits : weight ≤ cache.budget) :
    (cache.insert key value weight).1 = true ∧
      (cache.insert key value weight).2.shrink.Mirrors (list.insert ⟨key, value, weight⟩) := by
  obtain ⟨line, shows⟩ := mirrors.shows
  have inserted := shows.insert key value fits
  have budget : (cache.insert key value weight).2.budget = cache.budget :=
    inserted.budget.symm.trans shows.budget
  have room : RecencyList.load (list.forward ⟨key, value, weight⟩).held < 2 ^ 64 := by
    have others := load_without_le list key
    have weightFits := UInt64.le_iff_toNat_le.mp fits
    have whole := mirrors.fits
    have small := mirrors.small
    have forward : RecencyList.load (list.forward ⟨key, value, weight⟩).held =
        RecencyList.load (list.held.filter (·.key ≠ key)) + weight.toNat := by
      rw [RecencyList.forward, RecencyList.load, RecencyList.load, List.map_append, List.sum_append]
      rfl
    rw [forward]
    omega
  constructor
  · rw [(shows.ordered.insert key value weight).1]
    exact decide_eq_true fits
  · rw [RecencyList.insert, if_pos (shows.budget.symm ▸ fits)]
    exact inserted.shrink (budget ▸ mirrors.small) room

theorem insert_heavy (mirrors : cache.Mirrors list) (key : κ) (value : α) {weight : UInt64}
    (heavy : ¬weight ≤ cache.budget) :
    (cache.insert key value weight).1 = false ∧
      (cache.insert key value weight).2.Mirrors (list.insert ⟨key, value, weight⟩) := by
  obtain ⟨line, shows⟩ := mirrors.shows
  have above : cache.budget < weight := UInt64.not_le.mp heavy
  rw [RecencyList.insert, if_neg (shows.budget.symm ▸ heavy), ShardedCache.insert, if_pos above]
  exact ⟨rfl, mirrors.release key⟩

/-! ### One use -/

theorem get (mirrors : cache.Mirrors list) (key : κ) :
    (cache.serve (.get key)).1 = (list.serve (.get key)).1 ∧
      (cache.serve (.get key)).2.Mirrors (list.serve (.get key)).2 := by
  obtain ⟨line, shows⟩ := mirrors.shows
  have at? := shows.ordered.slot?_eq key
  have used := shows.ordered.get key
  have held := shows.held? key
  cases found : line.find? (·.key = key) with
  | none =>
      rw [found] at at? used
      rw [at?] at held
      simp only [ShardedCache.serve, RecencyList.serve, ShardedCache.get, at?, held,
        Option.map_none] at used ⊢
      refine ⟨trivial, ⟨line, used.2, shows.held, shows.budget, shows.hits, ?_, shows.evictions⟩,
        mirrors.small, mirrors.fits⟩
      exact congrArg (· + 1) shows.misses
  | some slot =>
      obtain ⟨member, keyed⟩ := (Ordered.find?_line shows.ordered.distinct).mp found
      rw [found] at at? used
      rw [at?] at held
      simp only [ShardedCache.serve, RecencyList.serve, ShardedCache.get, at?, held,
        Option.map_some] at used ⊢
      have moved : list.held.filter (·.key ≠ slot.key) ++ [slot.held] =
          (Ordered.forward line { slot with stamp := cache.clock }).map Slot.held := by
        rw [Ordered.forward, List.map_append, shows.filter slot.key]
        rfl
      have weight : RecencyList.load (list.held.filter (·.key ≠ slot.key) ++ [slot.held]) =
          RecencyList.load list.held := by
        have same := Ordered.load_without shows.ordered.distinct member
        rw [moved, load_held, Ordered.load_forward, shows.held, load_held, ← same]
      refine ⟨rfl, ⟨_, used.2, moved, shows.budget, ?_, shows.misses, shows.evictions⟩,
        mirrors.small, weight.symm ▸ mirrors.fits⟩
      exact congrArg (· + 1) shows.hits

theorem put (mirrors : cache.Mirrors list) (key : κ) (value : α) (weight : UInt64) :
    (cache.put key value weight).Mirrors (list.insert ⟨key, value, weight⟩) := by
  have written := mirrors.written key
  by_cases fits : weight ≤ (cache.onShard key Shard.written).budget
  · exact (written.insert_light key value fits).2
  · exact (written.insert_heavy key value fits).2.shrink

theorem offer (mirrors : cache.Mirrors list) (key : κ) (value : α) (weight : UInt64) :
    (cache.offer key value weight).1 = decide (weight ≤ list.budget) ∧
      (cache.offer key value weight).2.Mirrors (list.insert ⟨key, value, weight⟩) := by
  obtain ⟨line, shows⟩ := mirrors.shows
  rw [ShardedCache.offer, shows.budget]
  by_cases fits : weight ≤ cache.budget
  · have inserted := mirrors.insert_light key value fits
    cases outcome : cache.insert key value weight with
    | mk kept after =>
        rw [outcome] at inserted
        obtain ⟨rfl, settled⟩ := inserted
        exact ⟨(decide_eq_true fits).symm, settled⟩
  · have dropped := mirrors.insert_heavy key value fits
    cases outcome : cache.insert key value weight with
    | mk kept after =>
        rw [outcome] at dropped
        obtain ⟨rfl, smaller⟩ := dropped
        exact ⟨(decide_eq_false fits).symm, smaller⟩

theorem replace (mirrors : cache.Mirrors list) (key : κ) (value : α) (weight : UInt64) :
    (cache.serve (.replace key value weight)).1 = (list.serve (.replace key value weight)).1 ∧
      (cache.serve (.replace key value weight)).2.Mirrors
        (list.serve (.replace key value weight)).2 := by
  have written := mirrors.written key
  obtain ⟨line, shows⟩ := written.shows
  have present : (list.held? key).isSome = (cache.onShard key Shard.written).contains key := by
    rw [shows.held? key, Option.isSome_map]
    rfl
  have offered := written.offer key value weight
  simp only [ShardedCache.serve, RecencyList.serve, ShardedCache.replace, present]
  split
  · exact ⟨congrArg CacheAnswer.flag offered.1, offered.2⟩
  · exact ⟨rfl, written⟩

/-- One use gives the same answer, and leaves both holding the same. -/
theorem serve (mirrors : cache.Mirrors list) {use : CacheUse κ α} (fit : use.Fit cache) :
    (cache.serve use).1 = (list.serve use).1 ∧
      (cache.serve use).2.Mirrors (list.serve use).2 := by
  obtain ⟨line, shows⟩ := mirrors.shows
  cases use with
  | get key => exact mirrors.get key
  | contains key =>
      have present : (list.held? key).isSome = cache.contains key := by
        rw [shows.held? key, Option.isSome_map]
        rfl
      exact ⟨congrArg CacheAnswer.flag present.symm, mirrors⟩
  | weight key =>
      have charged : (list.held? key).map (·.weight) = cache.weight? key := by
        rw [shows.held? key, Option.map_map]
        rfl
      exact ⟨congrArg CacheAnswer.weight charged.symm, mirrors⟩
  | put key value weight => exact ⟨rfl, mirrors.put key value weight⟩
  | replace key value weight => exact mirrors.replace key value weight
  | fill key value weight noted =>
      have offered := mirrors.offer key value weight
      have current : ¬cache.generation key ≠ noted := not_not_intro fit
      simp only [ShardedCache.serve, RecencyList.serve, ShardedCache.fill, if_neg current]
      exact ⟨congrArg CacheAnswer.flag offered.1, offered.2⟩
  | remove key =>
      have found : (list.held? key).map (·.value) = (cache.slot? key).map (·.value) := by
        rw [shows.held? key, Option.map_map]
        rfl
      exact ⟨congrArg CacheAnswer.value found.symm, (mirrors.written key).release key⟩
  | clear => exact ⟨rfl, mirrors.clear⟩
  | setBudget budget => exact ⟨rfl, mirrors.setBudget fit⟩

/-- What was just put in is the last to go, and alone it is within the budget. -/
theorem held_of_insert {after : ShardedCache κ α} {key : κ} {value : α} {weight : UInt64}
    (mirrors : after.Mirrors (list.insert ⟨key, value, weight⟩)) (fits : weight ≤ list.budget) :
    after.value? key = some value := by
  obtain ⟨line, shows⟩ := mirrors.shows
  have kept : (⟨key, value, weight⟩ : Held κ α) ∈ (list.insert ⟨key, value, weight⟩).held := by
    rw [RecencyList.insert, if_pos fits]
    apply mem_trim_last
    apply decide_eq_false
    exact Nat.not_lt.mpr (UInt64.le_iff_toNat_le.mp fits)
  rw [shows.held] at kept
  obtain ⟨slot, member, same⟩ := List.mem_map.mp kept
  have keyed : slot.key = key := congrArg Held.key same
  have valued : slot.value = value := congrArg Held.value same
  have at? := (Ordered.find?_line shows.ordered.distinct).mpr ⟨member, keyed⟩
  rw [value?, shows.ordered.slot?_eq key, at?, Option.map_some, valued]

end Mirrors

/-! ### Runs of uses -/

variable [DecidableEq κ]

theorem serve_alike {cache : ShardedCache κ α} (sharded : 0 < cache.shards.length)
    (use : CacheUse κ α) : Alike (cache.serve use).2 cache := by
  cases use with
  | get key => exact get_alike cache key
  | put key value weight => exact (put_wrote sharded key value weight).toAlike
  | replace key value weight => exact (replace_wrote sharded key value weight).toAlike
  | fill key value weight noted => exact (fill_filled sharded key value weight noted).toAlike
  | remove key => exact (remove_wrote sharded key).toAlike
  | clear => exact clear_alike cache
  | setBudget budget =>
      have thinner := shrink_thinner { cache with budget }
      exact ⟨thinner.length, thinner.home⟩
  | contains key => exact ⟨rfl, fun _ => rfl⟩
  | weight key => exact ⟨rfl, fun _ => rfl⟩

theorem generation_serve {cache : ShardedCache κ α} (sharded : 0 < cache.shards.length) {key : κ}
    {use : CacheUse κ α} (quiet : ¬use.Writes cache.home key) :
    (cache.serve use).2.generation key = cache.generation key := by
  cases use with
  | get other => exact generation_get sharded other key
  | put other value weight =>
      exact ((put_wrote sharded other value weight).generation key).trans
        (if_neg (Ne.symm quiet))
  | replace other value weight =>
      exact ((replace_wrote sharded other value weight).generation key).trans
        (if_neg (Ne.symm quiet))
  | fill other value weight noted => exact (fill_filled sharded other value weight noted).generation key
  | remove other =>
      exact ((remove_wrote sharded other).generation key).trans (if_neg (Ne.symm quiet))
  | clear => exact absurd trivial quiet
  | setBudget budget => exact (shrink_thinner { cache with budget }).generation key
  | contains other => rfl
  | weight other => rfl

theorem generation_after {cache : ShardedCache κ α} (sharded : 0 < cache.shards.length) {key : κ}
    {uses : List (CacheUse κ α)} (quiet : ∀ use ∈ uses, ¬use.Writes cache.home key) :
    (cache.after uses).generation key = cache.generation key := by
  induction uses generalizing cache with
  | nil => rfl
  | cons use rest ih =>
      have alike := serve_alike sharded use
      have home : (cache.serve use).2.home = cache.home := funext alike.home
      have later : ((cache.serve use).2.after rest).generation key =
          (cache.serve use).2.generation key :=
        ih (alike.length ▸ sharded)
          (fun other member => home ▸ quiet other (List.mem_cons_of_mem _ member))
      exact later.trans (generation_serve sharded (quiet use (List.mem_cons_self ..)))

theorem after_append (cache : ShardedCache κ α) (earlier later : List (CacheUse κ α)) :
    cache.after (earlier ++ later) = (cache.after earlier).after later :=
  List.foldl_append

theorem after_alike {cache : ShardedCache κ α} (sharded : 0 < cache.shards.length)
    (uses : List (CacheUse κ α)) : Alike (cache.after uses) cache := by
  induction uses generalizing cache with
  | nil => exact ⟨rfl, fun _ => rfl⟩
  | cons use rest ih =>
      have alike := serve_alike sharded use
      have later : Alike ((cache.serve use).2.after rest) (cache.serve use).2 :=
        ih (alike.length ▸ sharded)
      exact ⟨later.length.trans alike.length,
        fun key => (later.home key).trans (alike.home key)⟩

/-- What a timely fill noted is still the write count when the fill comes. -/
theorem Timely.current {cache : ShardedCache κ α} (sharded : 0 < cache.shards.length)
    {uses : List (CacheUse κ α)} (timely : Timely cache uses)
    {before later : List (CacheUse κ α)} {key : κ} {value : α} {weight : UInt64} {noted : Nat}
    (split : uses = before ++ .fill key value weight noted :: later) :
    (cache.after before).generation key = noted := by
  obtain ⟨earlier, since, rfl, read, quiet⟩ := timely before key value weight noted later split
  have alike := after_alike sharded earlier
  have home : (cache.after earlier).home = cache.home := funext alike.home
  rw [after_append, ← read]
  exact generation_after (alike.length ▸ sharded) (home ▸ quiet)

/-- From a moment at which both hold the same, the rest of a run gives the same. -/
theorem Mirrors.run {start : ShardedCache κ α} {spec : RecencyList κ α}
    (sharded : 0 < start.shards.length) {uses : List (CacheUse κ α)} (timely : Timely start uses)
    (budgets : ∀ budget, CacheUse.setBudget budget ∈ uses → budget.toNat < 2 ^ 63)
    (rest : List (CacheUse κ α)) : ∀ done, uses = done ++ rest →
    (start.after done).Mirrors (spec.after done) →
      (start.after done).trace rest = (spec.after done).trace rest ∧
        (start.after uses).Mirrors (spec.after uses) := by
  induction rest with
  | nil =>
      intro done split mirrors
      rw [List.append_nil] at split
      exact ⟨rfl, split ▸ mirrors⟩
  | cons use rest ih =>
      intro done split mirrors
      have fit : use.Fit (start.after done) := by
        cases use with
        | fill key value weight noted => exact timely.current sharded split
        | setBudget budget =>
            apply budgets
            rw [split]
            exact List.mem_append_right _ (List.mem_cons_self ..)
        | _ => trivial
      obtain ⟨answer, served⟩ := mirrors.serve fit
      have next : uses = (done ++ [use]) ++ rest := by
        rw [split, List.append_assoc]
        rfl
      have cacheNext : start.after (done ++ [use]) = ((start.after done).serve use).2 :=
        after_append start done [use]
      have listNext : spec.after (done ++ [use]) = ((spec.after done).serve use).2 :=
        List.foldl_append
      have later := ih (done ++ [use]) next (by rw [cacheNext, listNext]; exact served)
      rw [cacheNext, listNext] at later
      refine ⟨?_, later.2⟩
      rw [trace, RecencyList.trace, answer, served.tally, later.1]

/-- A sharded cache is one list in the order of use: for any number of shards and any spreading of
the keys, every use gives the same answer and leaves the same counts. What is charged is exactly the
weight of what the shards hold and within the budget, and a value that fits is there after it was
put in. -/
theorem trace_eq_recencyList {budget : UInt64} (small : budget.toNat < 2 ^ 63) (shards : Nat)
    (spread : κ → Nat) (uses : List (CacheUse κ α))
    (budgets : ∀ later, CacheUse.setBudget later ∈ uses → later.toNat < 2 ^ 63)
    (timely : Timely (new budget shards spread) uses) :
    let cache := (new budget shards spread : ShardedCache κ α).after uses
    (new budget shards spread : ShardedCache κ α).trace uses =
        (RecencyList.new budget).trace uses ∧
      cache.tally = ((RecencyList.new budget).after uses).tally ∧
      cache.used.toNat =
        (cache.shards.map (fun shard => (shard.slots.map (·.weight.toNat)).sum)).sum ∧
      cache.used ≤ cache.budget ∧
      (∀ key value weight, weight ≤ cache.budget →
        (cache.put key value weight).value? key = some value) ∧
      ∀ key value weight, (cache.replace key value weight).1 = true →
        (cache.replace key value weight).2.value? key = some value := by
  intro cache
  have sharded : 0 < (new budget shards spread : ShardedCache κ α).shards.length :=
    length_new budget shards spread
  obtain ⟨same, mirrors⟩ : (new budget shards spread : ShardedCache κ α).trace uses =
      (RecencyList.new budget).trace uses ∧
      cache.Mirrors ((RecencyList.new budget).after uses) :=
    Mirrors.run sharded timely budgets uses [] rfl (Mirrors.new small shards spread)
  obtain ⟨line, shows⟩ := mirrors.shows
  have charged : cache.used.toNat = load line := by
    have tallied : cache.used.toNat = RecencyList.load ((RecencyList.new budget).after uses).held :=
      congrArg Tally.used mirrors.tally
    rw [tallied, shows.held, load_held]
  refine ⟨same, mirrors.tally, ?_, ?_, fun key value weight fits => ?_,
    fun key value weight replaced => ?_⟩
  · rw [charged, shows.ordered.sum_shards, load]
  · rw [UInt64.le_iff_toNat_le, charged, ← load_held, ← shows.held]
    exact mirrors.fits
  · exact (mirrors.put key value weight).held_of_insert (shows.budget ▸ fits)
  · have both := mirrors.replace key value weight
    simp only [ShardedCache.serve, RecencyList.serve, replaced] at both
    split at both
    · obtain ⟨answer, after⟩ := both
      exact after.held_of_insert (of_decide_eq_true (CacheAnswer.flag.inj answer).symm)
    · cases both.1

/-- Two shards, a fill that noted its count in time, an eviction, a replacement and a smaller
budget. -/
def mixedUses : List (CacheUse Nat Nat) :=
  [.put 1 10 4, .put 2 20 4, .get 1, .fill 3 30 4 1, .replace 1 11 6, .setBudget 6]

theorem mixedUses_timely : Timely (new 10 2 id : ShardedCache Nat Nat) mixedUses := by
  intro before key value weight noted later split
  have taken : before = mixedUses.take before.length := by
    rw [split, List.take_left]
  have at? : mixedUses[before.length]? = some (.fill key value weight noted) := by
    rw [split, List.getElem?_append_right (Nat.le_refl _), Nat.sub_self]
    rfl
  generalize before.length = place at taken at?
  match place, at? with
  | 3, at? =>
      cases at?
      refine ⟨[.put 1 10 4], [.put 2 20 4, .get 1], taken, by decide, fun use member => ?_⟩
      rcases List.mem_cons.mp member with rfl | last
      · have apart : ¬(2 : Nat) % 2 = 3 % 2 := by decide
        exact apart
      · rw [List.mem_singleton.mp last]
        exact not_false
  | 4, at? => cases at?
  | 5, at? => cases at?
  | place + 6, at? => cases at?

theorem mixedUses_eq_recencyList :
    (∀ later, CacheUse.setBudget later ∈ mixedUses → later.toNat < 2 ^ 63) ∧
      Timely (new 10 2 id : ShardedCache Nat Nat) mixedUses ∧
      (new 10 2 id : ShardedCache Nat Nat).trace mixedUses =
        (RecencyList.new 10).trace mixedUses ∧
      ((new 10 2 id : ShardedCache Nat Nat).after mixedUses).tally = ⟨1, 6, 1, 0, 2⟩ := by
  have budgets : ∀ later, CacheUse.setBudget later ∈ mixedUses → later.toNat < 2 ^ 63 := by
    intro later member
    simp only [mixedUses, List.mem_cons, reduceCtorEq, CacheUse.setBudget.injEq, List.not_mem_nil,
      or_false, false_or] at member
    subst member
    decide
  obtain ⟨same, tally, _rest⟩ :=
    trace_eq_recencyList (by decide) 2 id mixedUses budgets mixedUses_timely
  exact ⟨budgets, mixedUses_timely, same, by decide +kernel⟩

end ShardedCache

end

end BundleStore
