import BundleStore.Proofs.Cache.Order
import BundleStore.Proofs.Coherence.Runs

set_option autoImplicit false

/-! What a store that fails leaves behind, record by record. The cache is empty and charges nothing.
Storage has every record as it was, but for records of deleted nodes, which may be gone, and for an
initial part of the staged bundles in the order of their nodes, which have been written. -/

namespace BundleStore

/-! ### Runs without a discipline -/

/-- Whatever an action answers, the task goes on. -/
def anything : Rule Unit := fun _action stated _ => ∀ result, stated result ()

theorem anything_monotone : anything.Monotone :=
  fun _action _state _stated _needed implied met result => implied result () (met result)

namespace Task

variable {ε ε' α σ : Type}

theorem Meets.run_anything {task : Task ε α} {ends : α → Unit → Prop} {fails : ε → Unit → Prop}
    (meets : task.Meets anything ends fails ()) (serve : Serve σ) (state : σ) :
    match (task.run serve state).1 with
    | .ok value => ends value ()
    | .error error => fails error () := by
  induction task generalizing state with
  | done value => exact meets
  | fail error => exact meets
  | act action rest ih => exact ih _ (meets _) _

theorem run_orElse (serve : Serve σ) (task : Task ε' α) (other : ε' → Task ε α) (state : σ) :
    (task.orElse other).run serve state =
      match task.run serve state with
      | (.ok value, after) => (.ok value, after)
      | (.error error, after) => (other error).run serve after := by
  induction task generalizing state with
  | done value => rfl
  | fail error => rfl
  | act action rest ih => exact ih _ _

/-- What every action keeps, a run keeps. -/
theorem run_keeps {serve : Serve σ} {holds : σ → Prop}
    (kept : ∀ action state, holds state → holds (serve action state).2) (task : Task ε α)
    {state : σ} (start : holds state) : holds (task.run serve state).2 := by
  induction task generalizing state with
  | done value => exact start
  | fail error => exact start
  | act action rest ih => exact ih _ (kept action state start)

end Task

theorem Traffic.reaches_keeps {backend : Backend} {threshold : Nat} {holds : System backend → Prop}
    (kept : ∀ action system, holds system → holds (System.serve action system).2)
    {start traffic : Traffic backend} (reaches : Reaches threshold start traffic)
    (held : holds start.system) : holds traffic.system := by
  induction reaches with
  | start => exact held
  | step reached step ih =>
      cases step with
      | request traffic request => exact ih
      | read system readers place writer reader => exact kept _ system ih
      | write system readers write => exact ih
      | work system readers action rest => exact kept action system ih
      | finish system readers => exact ih
      | fail system readers error => exact ih

/-! ### What the cache charges -/

theorem BundleCache.serve_orderly {cache : BundleCache} (orderly : cache.entries.Orderly)
    (step : CacheStep) : (cache.serve step).2.entries.Orderly := by
  cases step with
  | lookup id =>
      change (cache.lookup id).2.entries.Orderly
      rw [entries_lookup]
      exact orderly.get id
  | generation id => exact orderly
  | fill id loaded generation => exact orderly.fill id _ _ generation
  | put bundle => exact orderly.put bundle.id _ _
  | refresh bundle => exact orderly.replace bundle.id _ _
  | putMissing id => exact orderly.put id _ _
  | invalidate id => exact orderly.remove id
  | clear => exact orderly.clear
  | keepComputed id before after =>
      change (cache.keepComputed id before after).entries.Orderly
      rw [entries_keepComputed]
      exact orderly.amend id _

namespace System

variable {backend : Backend} {system : System backend}

theorem serve_orderly (action : Action) (system : System backend)
    (orderly : system.cache.entries.Orderly) : (serve action system).2.cache.entries.Orderly := by
  cases action with
  | storage call => exact orderly
  | cache step => exact BundleCache.serve_orderly orderly step
  | warn warning => exact orderly

theorem Reachable.orderly (reachable : Reachable system) : system.cache.entries.Orderly := by
  induction reachable with
  | empty empty budget shards spread => exact ⟨[], ShardedCache.Ordered.new budget shards spread⟩
  | opened _reachable budget shards spread _ih =>
      exact ⟨[], ShardedCache.Ordered.new budget shards spread⟩
  | traffic _reachable reaches _quiet ih => exact Traffic.reaches_keeps serve_orderly reaches ih

end System

/-! ### Records -/

namespace Contents

/-- Every record is as before, or gone with a node that is deleted. -/
def Pruned (gone : NodeId → Prop) (before after : Contents) : Prop :=
  ∀ id, after.bundles id = before.bundles id ∨ (after.bundles id = none ∧ gone id)

variable {faults : Faults} {gone : NodeId → Prop} {before now after : Contents}

theorem Pruned.without (pruned : Pruned gone before now) {node : NodeId} (listed : gone node)
    (bundles : after.bundles = Function.update now.bundles node none) :
    Pruned gone before after := by
  intro id
  by_cases same : id = node
  · rw [bundles, same, Function.update_self]
    exact Or.inr ⟨rfl, listed⟩
  · rw [bundles, Function.update_of_ne same]
    exact pruned id

theorem pruned_of_chain {nodes : List Node} (listed : ∀ node ∈ nodes, gone node.id)
    (chain : Chain (Deletes faults) nodes before after) : Pruned gone before after := by
  apply chain.preserves (Pruned gone before) _ (fun _id => Or.inl rfl)
  intro node member now next deletes pruned
  exact pruned.without (listed node member) deletes.bundles

theorem pruned_of_breaks {nodes : List Node} (listed : ∀ node ∈ nodes, gone node.id)
    (breaks : Breaks (Deletes faults) DeletesHalf nodes before after) :
    Pruned gone before after := by
  obtain ⟨node, member, now, pruned, half⟩ := breaks.broken_after (Pruned gone before)
    (fun node member now next deletes pruned => pruned.without (listed node member) deletes.bundles)
    (fun _id => Or.inl rfl)
  rcases half with rfl | rfl
  · exact pruned
  · exact pruned.without (listed node member) rfl

end Contents

theorem Change.Spoils.bundles {faults : Faults} {change : Change} {before : Draft} {left : Contents}
    (spoils : change.Spoils faults before left) : left.bundles = before.contents.bundles := by
  cases change with
  | update node => rw [show left = before.contents from spoils]
  | drop state => rw [show left = before.contents from spoils]
  | put state =>
      rcases spoils with same | ⟨_plain, bundle, released, _held, releases, touched⟩
      · rw [same]
      · rw [touched.bundles, releases.bundles]

/-- A loop whose last pass was made or not has made the passes over an initial part of its list. -/
theorem Breaks.taken {β τ : Type} {pass broken : β → τ → τ → Prop} {list : List β} {first last : τ}
    (breaks : Breaks pass broken list first last)
    (either : ∀ element before after, broken element before after →
      after = before ∨ pass element before after) :
    ∃ count, Chain pass (list.take count) first last := by
  induction breaks with
  | here head =>
      rcases either _ _ _ head with rfl | made
      · exact ⟨0, Chain.nil _⟩
      · exact ⟨1, Chain.cons made (Chain.nil _)⟩
  | later head tail ih =>
      obtain ⟨count, chain⟩ := ih
      exact ⟨count + 1, Chain.cons head chain⟩

namespace Contents

/-- The bundles have been written; every other record is as before, or gone with a node that is
deleted. -/
structure Remains (gone : NodeId → Prop) (bundles : List Bundle) (before after : Contents) :
    Prop where
  written : ∀ bundle ∈ bundles, after.bundles bundle.id = some bundle.record
  others : ∀ id, (∀ bundle ∈ bundles, bundle.id ≠ id) →
    after.bundles id = before.bundles id ∨ (after.bundles id = none ∧ gone id)

variable {gone : NodeId → Prop} {before drafted after : Contents}

theorem Remains.congr {bundles : List Bundle} (remains : Remains gone bundles before drafted)
    (same : after.bundles = drafted.bundles) : Remains gone bundles before after := by
  constructor
  · rw [same]
    exact remains.written
  · rw [same]
    exact remains.others

theorem Pruned.remains (pruned : Pruned gone before after) : Remains gone [] before after where
  written := fun _bundle impossible => nomatch impossible
  others := fun id _others => pruned id

theorem unwritten_of_chain {bundles : List Bundle} (chain : Chain Writes bundles drafted after)
    {id : NodeId} (others : ∀ bundle ∈ bundles, bundle.id ≠ id) :
    after.bundles id = drafted.bundles id := by
  refine chain.preserves (fun now => now.bundles id = drafted.bundles id) ?_ rfl
  rintro bundle member now _next rfl same
  exact (Function.update_of_ne (others bundle member).symm ..).trans same

theorem written_of_chain {bundles : List Bundle} (distinct : (bundles.map Bundle.id).Nodup)
    (chain : Chain Writes bundles drafted after) {bundle : Bundle} (member : bundle ∈ bundles) :
    after.bundles bundle.id = some bundle.record := by
  induction chain with
  | nil state => cases member
  | cons head tail ih =>
      obtain ⟨fresh, later⟩ := List.nodup_cons.mp distinct
      rcases List.mem_cons.mp member with rfl | inRest
      · rw [unwritten_of_chain tail (fun other listed same =>
          fresh (List.mem_map.mpr ⟨other, listed, same⟩)), show _ = _ from head]
        exact Function.update_self ..
      · exact ih later inRest

theorem Pruned.remains_of_chain (pruned : Pruned gone before drafted) {bundles : List Bundle}
    (distinct : (bundles.map Bundle.id).Nodup) (chain : Chain Writes bundles drafted after) :
    Remains gone bundles before after where
  written := fun _bundle member => written_of_chain distinct chain member
  others := fun id others => by
    rw [unwritten_of_chain chain others]
    exact pruned id

end Contents

namespace Repository

variable {faults : Faults} {threshold : Nat} {log : ChangeLog} {before after : Contents}

/-- Staged bundles are listed in the order of their nodes. -/
theorem InOrder.increasing {staged : Staged} {now : Moment} (inOrder : InOrder staged now) :
    (staged.values.map Bundle.id).Pairwise (fun left right => compare left right = .lt) := by
  rw [SortedMap.values, List.map_map, List.pairwise_map]
  refine staged.increasing.imp_of_mem (fun {left right} inLeft inRight before => ?_)
  have leftNamed : left.2.id = left.1 := inOrder.filed (SortedMap.find?_eq_some.mpr inLeft)
  have rightNamed : right.2.id = right.1 := inOrder.filed (SortedMap.find?_eq_some.mpr inRight)
  change compare left.2.id right.2.id = .lt
  rw [leftNamed, rightNamed]
  exact before

theorem InOrder.distinct {staged : Staged} {now : Moment} (inOrder : InOrder staged now) :
    (staged.values.map Bundle.id).Nodup := by
  refine inOrder.increasing.imp (fun {left right} before same => ?_)
  have self : compare left left = .eq := Std.ReflCmp.compare_self
  rw [← same, self] at before
  cases before

theorem Undrawn.pruned (undrawn : Undrawn faults threshold log before after) :
    Contents.Pruned log.Deletes before after := by
  have listed : ∀ node ∈ log.deletedNodes, log.Deletes node.id :=
    fun node member => ⟨node, member, rfl⟩
  cases undrawn with
  | deleting cut => exact Contents.pruned_of_breaks listed cut
  | staging cleared deleted cut =>
      have same : after.bundles = cleared.bundles := by
        obtain ⟨change, _member, draft, kept, spoils⟩ := cut.broken_after
          (fun draft => draft.contents.bundles = cleared.bundles)
          (fun change _member now next makes kept => makes.aside.1.trans kept) rfl
        exact spoils.bundles.trans kept
      intro id
      rw [same]
      exact Contents.pruned_of_chain listed deleted id

theorem Drawn.pruned {staged : Staged} {now : Moment} {cleared : Contents}
    (drawn : Drawn faults threshold log before staged now cleared) :
    Contents.Pruned log.Deletes before now.contents := by
  have same : now.contents.bundles = cleared.bundles := (Change.aside_of_chain drawn.made).1
  intro id
  rw [same]
  exact Contents.pruned_of_chain (fun node member => ⟨node, member, rfl⟩) drawn.deleted id

theorem Unsettled.taken {bundles : List Bundle} (unsettled : Unsettled log bundles before after) :
    ∃ count written, Chain Contents.Writes (bundles.take count) before written ∧
      after.bundles = written.bundles := by
  cases unsettled with
  | writing cut =>
      obtain ⟨count, chain⟩ := cut.taken (fun _bundle _now _next half => half)
      exact ⟨count, after, chain, rfl⟩
  | listing written wrote cut =>
      refine ⟨bundles.length, written, ?_, (Contents.relisted_of_breaks cut).bundles⟩
      rw [List.take_length]
      exact wrote

theorem Drawn.remains_of_unsettled {staged : Staged} {now : Moment} {cleared : Contents}
    (drawn : Drawn faults threshold log before staged now cleared)
    (unsettled : Unsettled log staged.values now.contents after) :
    ∃ count, Contents.Remains log.Deletes (staged.values.take count) before after := by
  obtain ⟨count, written, chain, same⟩ := unsettled.taken
  have distinct : ((staged.values.take count).map Bundle.id).Nodup := by
    rw [List.map_take]
    exact drawn.inOrder.distinct.sublist (List.take_sublist ..)
  exact ⟨count, (drawn.pruned.remains_of_chain distinct chain).congr same⟩

/-- Once everything is staged, only storage can fail. -/
theorem Halted.inStorage {bundles : List Bundle} {error : RepositoryError}
    (halted : Halted faults bundles error) : ∃ cause, error = .storage cause := by
  obtain ⟨_call, cause, _held, same, _fault, _writes⟩ := halted
  exact ⟨cause, same⟩

end Repository

namespace System

variable {backend : Backend} {system after : System backend} {threshold : Nat} {log : ChangeLog}
  {error : RepositoryError}

/-- A store fails as applying its log fails, and empties the cache. -/
theorem failed_of_store
    (failed : (Repository.store threshold log).run serve system = (.error error, after)) :
    ∃ left, (Repository.apply threshold log).run serve system = (.error error, left) ∧
      after = { left with cache := left.cache.clear } := by
  rw [Repository.store, Task.run_orElse] at failed
  cases outcome : (Repository.apply threshold log).run serve system with
  | mk result left =>
      rw [outcome] at failed
      cases result with
      | ok value => cases failed
      | error cause =>
          have same : (Except.error cause, { left with cache := left.cache.clear }) =
              (Except.error error, after) := failed
          cases same
          exact ⟨left, rfl, rfl⟩

/-- What is left by a store that fails. The cache is empty and charges nothing. If the changes could
not all be staged, no record has been written; otherwise storage has failed, and an initial part of
the staged bundles, in the order of their nodes, has been written whole. Every other record is as
before, or gone with its node. -/
theorem remains_of_store (backend : Backend) (system : System backend) (reachable : system.Reachable)
    (threshold : Nat) (log : ChangeLog) (error : RepositoryError) (after : System backend)
    (failed : (Repository.store threshold log).run serve system = (.error error, after)) :
    after.cache.entries.size = 0 ∧ after.cache.entries.used = 0 ∧
      (∀ item, error = .notFound item →
        Contents.Remains log.Deletes [] system.contents after.contents) ∧
      match ((Repository.draw threshold log).run serve system).1 with
      | .error cause => cause = error ∧
          Contents.Remains log.Deletes [] system.contents after.contents
      | .ok (_gone, staged) => (∃ cause, error = .storage cause) ∧
          (staged.values.map Bundle.id).Pairwise (fun left right => compare left right = .lt) ∧
          ∃ count, Contents.Remains log.Deletes (staged.values.take count) system.contents
            after.contents := by
  obtain ⟨left, applied, rfl⟩ := failed_of_store failed
  obtain ⟨rest, _proper⟩ := reachable.atRest
  have orderly : left.cache.entries.Orderly := by
    have kept := Task.run_keeps serve_orderly (Repository.apply threshold log) reachable.orderly
    rw [applied] at kept
    exact kept
  obtain ⟨size, used⟩ := orderly.nothing_of_clear
  refine ⟨size, used, ?_⟩
  change (∀ item, _ → Contents.Remains _ _ system.contents left.contents) ∧ _
  have met := (Repository.draw_writing threshold log).run backend.failsOnly_any rest trivial
  rw [Repository.apply_eq, Task.run_bind] at applied
  cases outcome : (Repository.draw threshold log).run serve system with
  | mk result middle =>
      rw [outcome] at applied met
      obtain ⟨now, sound, drawn⟩ := met
      cases result with
      | error cause =>
          cases applied
          have pruned := Repository.Undrawn.pruned drawn
          rw [← sound.contents] at pruned
          exact ⟨fun _item _notFound => pruned.remains, rfl, pruned.remains⟩
      | ok both =>
          obtain ⟨gone, staged⟩ := both
          obtain ⟨cleared, drawn⟩ := drawn
          have free : now.stage.Valid (middle.scene now) := by
            rw [drawn.inOrder.free]
            trivial
          have settled := (Repository.settle_halts log gone drawn.inOrder).run
            backend.failsOnly_any sound free
          rw [show (Repository.settle log gone staged).run serve middle = _ from applied] at settled
          obtain ⟨last, lastSound, unsettled, halted⟩ := settled
          obtain ⟨cause, rfl⟩ := halted.inStorage
          obtain ⟨count, remains⟩ := drawn.remains_of_unsettled unsettled
          rw [← lastSound.contents] at remains
          exact ⟨fun _item impossible => (by cases impossible), ⟨cause, rfl⟩,
            drawn.inOrder.increasing, count, remains⟩

end System

/-! ### A store that is broken off while it writes -/

/-- Some calls are turned down, and do nothing. -/
def Backend.refusing (backend : Backend) (refused : StorageCall → Bool) : Backend where
  State := backend.State
  serve := fun call state =>
    if refused call then (.error (.injected call.name), state) else backend.serve call state
  contents := backend.contents
  answered := by
    intro call state result
    split
    · intro impossible
      cases impossible
    · exact backend.answered
  failed := by
    intro call state error
    split
    · exact fun _failed => Or.inl rfl
    · exact backend.failed

namespace System

/-- The second of two nodes cannot be written. -/
def narrow : Backend :=
  MemoryStorage.backend.refusing (fun call =>
    match call with
    | .storeBundle bundle => bundle.id ≠ NodeId.zero
    | _ => false)

def second : NodeId := ⟨[0, 0, 0, 0, 0, 0, 0, 0, 0, 0, 0, 0, 0, 0, 0, 2], rfl⟩

def pairLog : ChangeLog :=
  { ChangeLog.empty with
    added :=
      [.node (Node.fresh second Name.unstructured none),
        .node (Node.fresh NodeId.zero Name.unstructured none)] }

def narrowStart : System narrow :=
  fresh (⟨MemoryStorage.empty, MemoryStorage.empty_sound⟩ : MemoryStorage.Kept) 100000 1 (fun _ => 0)

def halfStored : System narrow := ((Repository.store 2 pairLog).run serve narrowStart).2

theorem narrowStart_reachable : narrowStart.Reachable :=
  Reachable.empty ⟨fun _id => rfl, fun _target => rfl, fun _blob => rfl⟩ 100000 1 (fun _ => 0)

set_option maxRecDepth 2500 in
theorem pair_fails : (Repository.store 2 pairLog).run serve narrowStart =
    (.error (.storage (.injected "store_bundle")), halfStored) :=
  Prod.ext (by decide +kernel) rfl

set_option maxRecDepth 2500 in
theorem halfStored_remains : halfStored.cache.entries.size = 0 ∧ halfStored.cache.entries.used = 0 ∧
    (halfStored.contents.bundles NodeId.zero).isSome = true ∧
    halfStored.contents.bundles second = none := by
  obtain ⟨size, used, _rest⟩ := remains_of_store narrow narrowStart narrowStart_reachable 2 pairLog
    (.storage (.injected "store_bundle")) halfStored pair_fails
  exact ⟨size, used, by decide +kernel, by decide +kernel⟩

end System

end BundleStore
