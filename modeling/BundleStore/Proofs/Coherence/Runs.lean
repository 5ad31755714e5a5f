import BundleStore.Proofs.Coherence.Traffic
import BundleStore.Proofs.Store.Outcome
import BundleStore.Proofs.Store.Reading

set_option autoImplicit false

/-! Tasks run to their ends on a system at rest. What a task meets is what its run comes to; between
two runs the system is at rest again. Every system that comes about from an empty storage is at
rest with a proper storage, whatever has failed before. -/

namespace BundleStore

variable {backend : Backend}

namespace Task

variable {ε α : Type} {ends : α → Moment → Prop} {fails : ε → Moment → Prop}

/-- What the writer's rule says of a task holds of its run. -/
theorem Meets.run {faults : Faults} (only : backend.FailsOnly faults) {task : Task ε α}
    {system : System backend} {now : Moment} (sound : system.Sound now)
    (valid : now.stage.Valid (system.scene now))
    (meets : task.Meets (writing faults) ends fails now) :
    ∃ next, (task.run System.serve system).2.Sound next ∧
      match (task.run System.serve system).1 with
      | .ok value => ends value next
      | .error error => fails error next := by
  induction task generalizing system now with
  | done value => exact ⟨now, sound, meets⟩
  | fail error => exact ⟨now, sound, meets⟩
  | act action rest ih =>
      obtain ⟨permits, met⟩ := meets
      obtain ⟨next, leads, steps, stays⟩ := System.steps_writing only sound valid permits
      exact ih _ steps.sound stays (met _ next leads)

theorem Meets.run_reading {task : Task ε α} {system : System backend} {now : Moment}
    (sound : system.Sound now) {stage : Stage} (valid : stage.Valid (system.scene now))
    {ends : α → Stage → Prop} {fails : ε → Stage → Prop}
    (meets : task.Meets reading ends fails stage) : (task.run System.serve system).2.Sound now := by
  induction task generalizing system stage with
  | done value => exact sound
  | fail error => exact sound
  | act action rest ih =>
      obtain ⟨permits, met⟩ := meets
      obtain ⟨steps, stays⟩ := System.steps_reading now sound rfl (fun _id known => known) valid
        permits
      exact ih _ steps.sound stays (met _)

end Task

namespace System

/-- Nothing is on its way, and the cache is true. -/
def AtRest (system : System backend) : Prop := system.Sound ⟨.free, system.contents⟩

variable {system : System backend}

theorem Sound.atRest {now : Moment} (sound : system.Sound now) (free : now.stage = .free) :
    system.AtRest := by
  obtain ⟨stage, contents⟩ := now
  obtain rfl : stage = .free := free
  obtain rfl : system.contents = contents := sound.contents
  exact sound

theorem fresh_atRest (storage : backend.State) (budget : UInt64) (shards : Nat)
    (spread : NodeId → Nat) : (fresh storage budget shards spread).AtRest :=
  fresh_sound storage budget shards spread

/-- The cache serves as well in front of another storage that holds the same. -/
theorem AtRest.moved {other : Backend} (rest : system.AtRest) {storage : other.State}
    (same : other.contents storage = system.contents) :
    System.AtRest (⟨storage, system.cache⟩ : System other) := by
  refine ⟨rfl, rest.sharded, rest.filed, fun {id entry} held known => ?_⟩
  change entry.Tells ((other.contents storage).bundles id)
  rw [same]
  exact rest.tells held known

/-- Handles requests, one after another. -/
def ask (requests : List Request) (system : System backend) : System backend :=
  requests.foldl (fun system request => (request.task.run serve system).2) system

theorem AtRest.ask (rest : system.AtRest) (requests : List Request) :
    (System.ask requests system).AtRest ∧
      (System.ask requests system).contents = system.contents := by
  induction requests generalizing system with
  | nil => exact ⟨rest, rfl⟩
  | cons request others ih =>
      have idle : Stage.free.Valid (system.scene ⟨.free, system.contents⟩) := trivial
      have sound := (Reads.request request).run_reading rest idle
      obtain ⟨still, same⟩ := ih (sound.atRest rfl)
      exact ⟨still, same.trans sound.contents⟩

theorem AtRest.answers (reliable : backend.FailsOnly Faults.none) (rest : system.AtRest)
    {ε α : Type} {task : Task ε α} {result : Except ε α}
    (answers : task.Answers system.contents result) :
    (task.run serve system).1 = result := by
  obtain ⟨next, _sound, outcome⟩ := answers.run reliable rest trivial
  cases given : (task.run serve system).1 with
  | ok value =>
      rw [given] at outcome
      exact outcome.2.symm
  | error error =>
      rw [given] at outcome
      exact outcome.2.symm

/-! ### What is read through the cache -/

def node (system : System backend) (id : NodeId) : Except RepositoryError Node :=
  ((Repository.loadNode id).run serve system).1

def property (system : System backend) (id : PropertyId) : Except RepositoryError Property :=
  ((Repository.loadProperty id).run serve system).1

def referencesTo (system : System backend) (target : NodeId) :
    Except RepositoryError References :=
  ((Repository.loadReferences target).run serve system).1

theorem AtRest.node (reliable : backend.FailsOnly Faults.none) (rest : system.AtRest)
    (id : NodeId) : system.node id = system.contents.node id :=
  rest.answers reliable (Repository.loadNode_answers id)

theorem AtRest.property (reliable : backend.FailsOnly Faults.none) (rest : system.AtRest)
    (id : PropertyId) : system.property id = system.contents.property id :=
  rest.answers reliable (Repository.loadProperty_answers id)

theorem AtRest.referencesTo (reliable : backend.FailsOnly Faults.none) (rest : system.AtRest)
    (target : NodeId) : system.referencesTo target = system.contents.referencesTo target :=
  rest.answers reliable (Repository.loadReferences_answers target)

/-! ### Stores -/

theorem AtRest.store {faults : Faults} (only : backend.FailsOnly faults) (rest : system.AtRest)
    (threshold : Nat) (log : ChangeLog) {result : Except RepositoryError Unit}
    {after : System backend}
    (stored : (Repository.store threshold log).run serve system = (result, after)) :
    after.AtRest ∧
      match result with
      | .ok _ => Applied faults threshold log system.contents after.contents
      | .error _ => Abandoned faults threshold log system.contents after.contents := by
  have met := (Repository.store_writing faults threshold log).run only rest trivial
  rw [stored] at met
  obtain ⟨next, sound, outcome⟩ := met
  have contents : after.contents = next.contents := sound.contents
  rw [contents]
  cases result with
  | ok _unit => exact ⟨sound.atRest outcome.1, outcome.2⟩
  | error error => exact ⟨sound.atRest outcome.1, outcome.2⟩

/-- What comes about from an empty storage: by traffic, once no write is on its way, and by opening
the storage anew. -/
inductive Reachable : System backend → Prop where
  | empty {storage : backend.State} (empty : (backend.contents storage).Empty) (budget : UInt64)
      (shards : Nat) (spread : NodeId → Nat) : Reachable (fresh storage budget shards spread)
  | traffic {start : System backend} (reachable : Reachable start) {threshold : Nat}
      {traffic : Traffic backend}
      (reaches : Traffic.Reaches threshold (Traffic.idle start) traffic)
      (quiet : traffic.writer = none) : Reachable traffic.system
  | opened {system : System backend} (reachable : Reachable system) (budget : UInt64)
      (shards : Nat) (spread : NodeId → Nat) : Reachable (fresh system.storage budget shards spread)

/-- A write that nobody comes across goes on as its task runs. -/
theorem reaches_run {threshold : Nat} {start : Traffic backend} {system : System backend}
    {readers : List (Task RepositoryError Unit)} {task : Task RepositoryError Unit}
    (reached : Traffic.Reaches threshold start ⟨system, readers, some task⟩) :
    Traffic.Reaches threshold start ⟨(task.run serve system).2, readers, none⟩ := by
  induction task generalizing system with
  | done value => exact reached.step (Traffic.Step.finish system readers)
  | fail error => exact reached.step (Traffic.Step.fail system readers error)
  | act action rest ih => exact ih _ (reached.step (Traffic.Step.work system readers action rest))

theorem Reachable.write (reachable : system.Reachable) (threshold : Nat) (write : Write) :
    System.Reachable ((write.task threshold).run serve system).2 := by
  have begun : Traffic.Reaches threshold (Traffic.idle system)
      ⟨system, [], some (write.task threshold)⟩ :=
    Traffic.Reaches.start.step (Traffic.Step.write system [] write)
  exact Reachable.traffic reachable (reaches_run begun) rfl

theorem writes_proper (faults : Faults) (threshold : Nat) (write : Write) :
    Writes faults Contents.Proper (write.task threshold) := by
  cases write with
  | store log =>
      exact Writes.store threshold log (fun _before _after proper applied => applied.proper proper)
        (fun _before _after proper abandoned => abandoned.proper proper)
  | externalUpdate log => exact Writes.externalUpdate log
  | check ids recursive repair =>
      exact Writes.check ids recursive repair
        (fun _before _after proper mended => Contents.Mended.proper mended proper)

theorem Reachable.atRest (reachable : Reachable system) :
    system.AtRest ∧ system.contents.Proper := by
  induction reachable with
  | empty empty budget shards spread => exact ⟨fresh_atRest _ budget shards spread, empty.proper⟩
  | opened _reachable budget shards spread ih => exact ⟨fresh_atRest _ budget shards spread, ih.2⟩
  | traffic _reachable reaches quiet ih =>
      obtain ⟨now, sound, _valid, writing, _reading⟩ := Traffic.reaches_kept backend.failsOnly_any
        (writes_proper Faults.any _) reaches (Traffic.idle_kept ih.1 rfl ih.2)
      rw [quiet] at writing
      constructor
      · exact sound.atRest writing.1
      · rw [sound.contents]
        exact writing.2

end System

end BundleStore
