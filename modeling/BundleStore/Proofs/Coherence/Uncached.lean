import BundleStore.Proofs.Coherence.Requests
import BundleStore.Proofs.Coherence.Steps
import BundleStore.Proofs.Storage.Memory
import BundleStore.Proofs.Store.Remains
import BundleStore.Session
import Mathlib.Data.List.Forall2

set_option autoImplicit false

/-! A repository in memory that has no cache and loads every bundle where it is needed, and beside it
a session with a cache that does the same work. The session keeps to the writer's order of actions,
so its cache is true; then what it fetches is what the other one loads, but for the states that
have been computed meanwhile. Two tasks go alongside when they come to alike ends from any such
pair. -/

namespace BundleStore

/-! ### The repository without a cache -/

/-- The answer of a cache that never holds anything. -/
def CacheStep.unheld : (step : CacheStep) → step.Result
  | .lookup _ => .unknown
  | .generation _ => 0
  | .fill _ _ _ => false
  | .put _ => ()
  | .refresh _ => false
  | .putMissing _ => ()
  | .invalidate _ => ()
  | .clear => ()
  | .keepComputed _ _ _ => ()

structure Uncached where
  storage : MemoryStorage
  blobThreshold : Nat
  /-- The latest warning comes first. -/
  warnings : List Warning

namespace Uncached

def serve : Task.Serve Uncached
  | .storage call, plain =>
      let (result, storage) := plain.storage.serve call
      (result, { plain with storage })
  | .cache step, plain => (step.unheld, plain)
  | .warn warning, plain => ((), { plain with warnings := warning :: plain.warnings })

def run {ε α : Type} (plain : Uncached) (task : Task ε α) : Except ε α × Uncached :=
  task.run serve plain

end Uncached

/-! ### Both at work -/

namespace Session

/-- The cache of the session in front of storage in memory. -/
def system (session : Session) (storage : MemoryStorage.Kept) : System MemoryStorage.backend :=
  ⟨storage, session.cache⟩

end Session

/-- Both have the same storage and have given the same warnings, and the cache of the session is as
true as the moment wants it. -/
structure Abreast (now : Moment) (session : Session) (plain : Uncached) : Prop where
  storage : session.storage = .memory plain.storage
  threshold : session.blobThreshold = plain.blobThreshold
  warnings : session.warnings = plain.warnings
  healthy : session.faults = SortedMap.empty
  sound : ∃ kept : MemoryStorage.Kept, kept.1 = plain.storage ∧ (session.system kept).Sound now ∧
    now.stage.Valid ((session.system kept).scene now)

namespace Abreast

variable {now : Moment} {session : Session} {plain : Uncached}

theorem recorded_memory (abreast : Abreast now session plain) (call : StorageCall) :
    session.recorded call = ((plain.storage.serve call).1,
      { session with
          calls := call.text :: session.calls
          storage := .memory (plain.storage.serve call).2 }) := by
  obtain ⟨storage, cache, threshold, faults, calls, warnings⟩ := session
  obtain rfl : storage = .memory plain.storage := abreast.storage
  obtain rfl : faults = SortedMap.empty := abreast.healthy
  rfl

/-- A call to storage has the same result for both. -/
theorem call (abreast : Abreast now session plain) {call : StorageCall}
    (permits : now.Permits (.storage call)) :
    (session.serve (.storage call)).1 = (plain.serve (.storage call)).1 ∧
      ∃ next, now.Leads Faults.none (.storage call) (plain.serve (.storage call)).1 next ∧
        Abreast next (session.serve (.storage call)).2 (plain.serve (.storage call)).2 := by
  obtain ⟨kept, same, sound, valid⟩ := abreast.sound
  obtain ⟨next, leads, steps, stays⟩ :=
    System.steps_writing MemoryStorage.backend_failsOnly sound valid permits
  have served := abreast.recorded_memory call
  change session.serve (.storage call) = _ at served
  rw [served]
  obtain ⟨storage, readable⟩ := kept
  obtain rfl : storage = plain.storage := same
  refine ⟨rfl, next, leads, rfl, abreast.threshold, abreast.warnings, abreast.healthy, ?_⟩
  exact ⟨_, rfl, steps.sound, stays⟩

/-- Of a step on the cache the other one takes no notice. -/
theorem cache (abreast : Abreast now session plain) {step : CacheStep}
    (permits : now.Permits (.cache step)) :
    ∃ next, now.Leads Faults.none (.cache step) (session.serve (.cache step)).1 next ∧
      Abreast next (session.serve (.cache step)).2 plain := by
  obtain ⟨kept, same, sound, valid⟩ := abreast.sound
  obtain ⟨next, leads, steps, stays⟩ :=
    System.steps_writing MemoryStorage.backend_failsOnly sound valid permits
  refine ⟨next, leads, abreast.storage, abreast.threshold, abreast.warnings, abreast.healthy, ?_⟩
  exact ⟨kept, same, steps.sound, stays⟩

theorem warn (abreast : Abreast now session plain) (warning : Warning) :
    Abreast now (session.serve (.warn warning)).2 (plain.serve (.warn warning)).2 :=
  ⟨abreast.storage, abreast.threshold, congrArg (warning :: ·) abreast.warnings, abreast.healthy,
    abreast.sound⟩

end Abreast

/-- Both have ended, with alike values, or both have failed, with the same error. -/
inductive Outcome {ε α β : Type} (alike : α → β → Prop) (ends : α → Moment → Prop)
    (fails : ε → Moment → Prop) : Except ε α × Session → Except ε β × Uncached → Prop where
  | done {value : α} {other : β} {now : Moment} {session : Session} {plain : Uncached}
      (same : alike value other) (ended : ends value now) (abreast : Abreast now session plain) :
      Outcome alike ends fails (.ok value, session) (.ok other, plain)
  | failed {error : ε} {now : Moment} {session : Session} {plain : Uncached}
      (broken : fails error now) (abreast : Abreast now session plain) :
      Outcome alike ends fails (.error error, session) (.error error, plain)

namespace Task

variable {ε ε' α β α' β' γ : Type}

theorem run_mapError {σ : Type} (serve : Serve σ) (change : ε' → ε) (task : Task ε' α) (state : σ) :
    (task.mapError change).run serve state =
      ((task.run serve state).1.mapError change, (task.run serve state).2) := by
  induction task generalizing state with
  | done value => rfl
  | fail error => rfl
  | act action rest ih => exact ih _ _

/-- Wherever the first task keeps to the writer's order, the second one comes to an alike end
without a cache. -/
structure Alongside (alike : α → β → Prop) (task : Task ε α) (other : Task ε β) : Prop where
  outcome : ∀ {ends : α → Moment → Prop} {fails : ε → Moment → Prop} {now : Moment}
    {session : Session} {plain : Uncached}, task.Meets (writing Faults.none) ends fails now →
    Abreast now session plain → Outcome alike ends fails (session.run task) (plain.run other)

namespace Alongside

variable {alike : α → β → Prop} {alike' : α' → β' → Prop}

theorem pure {value : α} {other : β} (same : alike value other) :
    Alongside alike (pure value : Task ε α) (Pure.pure other) :=
  ⟨fun meets abreast => .done same meets abreast⟩

theorem fail (error : ε) : Alongside alike (fail error : Task ε α) (Task.fail error) :=
  ⟨fun meets abreast => .failed meets abreast⟩

theorem mono {needed : α → β → Prop} {task : Task ε α} {other : Task ε β}
    (alongside : Alongside alike task other) (implied : ∀ {value other}, alike value other →
      needed value other) : Alongside needed task other := by
  constructor
  intro ends fails now session plain meets abreast
  have outcome := alongside.outcome meets abreast
  generalize session.run task = left at outcome ⊢
  generalize plain.run other = right at outcome ⊢
  cases outcome with
  | done same ended abreast => exact .done (implied same) ended abreast
  | failed broken abreast => exact .failed broken abreast

theorem forgotten {task other : Task ε Unit} (alongside : Alongside (fun _ _ => True) task other) :
    Alongside Eq task other := alongside.mono (fun {_value _other} _any => rfl)

theorem bind {task : Task ε α} {other : Task ε β} {next : α → Task ε α'} {next' : β → Task ε β'}
    (first : Alongside alike task other)
    (rest : ∀ {value given}, alike value given → Alongside alike' (next value) (next' given)) :
    Alongside alike' (task >>= next) (other >>= next') := by
  constructor
  intro ends fails now session plain meets abreast
  have outcome := first.outcome (meets_bind.mp meets) abreast
  rw [Session.run, Uncached.run, run_bind, run_bind]
  change Outcome _ _ _ (task.run Session.serve session) (other.run Uncached.serve plain) at outcome
  generalize task.run Session.serve session = left at outcome ⊢
  generalize other.run Uncached.serve plain = right at outcome ⊢
  cases outcome with
  | done same ended abreast => exact (rest same).outcome ended abreast
  | failed broken abreast => exact .failed broken abreast

theorem mapError {change : ε' → ε} {task : Task ε' α} {other : Task ε' β}
    (alongside : Alongside alike task other) :
    Alongside alike (task.mapError change) (other.mapError change) := by
  constructor
  intro ends fails now session plain meets abreast
  have outcome := alongside.outcome (meets_mapError.mp meets) abreast
  rw [Session.run, Uncached.run, run_mapError, run_mapError]
  change Outcome _ _ _ (task.run Session.serve session) (other.run Uncached.serve plain) at outcome
  generalize task.run Session.serve session = left at outcome ⊢
  generalize other.run Uncached.serve plain = right at outcome ⊢
  cases outcome with
  | done same ended abreast => exact .done same ended abreast
  | failed broken abreast => exact .failed broken abreast

theorem orElse {task : Task ε' α} {other : Task ε' β} {next : ε' → Task ε α}
    {next' : ε' → Task ε β} (first : Alongside alike task other)
    (rest : ∀ error, Alongside alike (next error) (next' error)) :
    Alongside alike (task.orElse next) (other.orElse next') := by
  constructor
  intro ends fails now session plain meets abreast
  have outcome := first.outcome (meets_orElse.mp meets) abreast
  rw [Session.run, Uncached.run, run_orElse, run_orElse]
  change Outcome _ _ _ (task.run Session.serve session) (other.run Uncached.serve plain) at outcome
  generalize task.run Session.serve session = left at outcome ⊢
  generalize other.run Uncached.serve plain = right at outcome ⊢
  cases outcome with
  | done same ended abreast => exact .done same ended abreast
  | failed broken abreast => exact (rest _).outcome broken abreast

/-! ### Loops -/

theorem foldlM {body : α → γ → Task ε α} {body' : β → γ → Task ε β} (list : List γ)
    (each : ∀ element {value other}, alike value other →
      Alongside alike (body value element) (body' other element))
    {value : α} {other : β} (same : alike value other) :
    Alongside alike (list.foldlM body value) (list.foldlM body' other) := by
  induction list generalizing value other with
  | nil => exact pure same
  | cons element rest ih =>
      rw [List.foldlM_cons, List.foldlM_cons]
      exact (each element same).bind ih

theorem forM {body : α → Task ε PUnit} {body' : β → Task ε PUnit} {list : List α}
    {others : List β} (paired : List.Forall₂ alike list others)
    (each : ∀ {element other}, alike element other → Alongside Eq (body element) (body' other)) :
    Alongside Eq (list.forM body) (others.forM body') := by
  induction paired with
  | nil => exact pure rfl
  | cons same _rest ih => exact (each same).bind (fun _same => ih)

theorem forM_same {body : α → Task ε PUnit} (list : List α)
    (each : ∀ element, Alongside Eq (body element) (body element)) :
    Alongside Eq (list.forM body) (list.forM body) :=
  forM (List.forall₂_same.mpr (fun _element _member => rfl)) (fun same => same ▸ each _)

theorem mapM {body : α → Task ε β} (list : List α)
    (each : ∀ element, Alongside Eq (body element) (body element)) :
    Alongside Eq (list.mapM body) (list.mapM body) := by
  induction list with
  | nil => exact pure rfl
  | cons element rest ih =>
      rw [List.mapM_cons]
      exact (each element).bind (fun same => ih.bind (fun others => pure (by rw [same, others])))

/-! ### Single actions -/

theorem attempt (call : StorageCall) :
    Alongside Eq (Task.attempt call : Task ε _) (Task.attempt call) := by
  constructor
  intro ends fails now session plain meets abreast
  obtain ⟨permits, met⟩ := meets
  obtain ⟨same, next, leads, after⟩ := abreast.call permits
  exact .done same (met _ next (same ▸ leads)) after

theorem call (call : StorageCall) : Alongside Eq (Task.call call) (Task.call call) :=
  (attempt call).bind (fun same => by
    subst same
    rename_i result
    cases result with
    | ok value => exact pure rfl
    | error error => exact fail error)

theorem warn (warning : Warning) :
    Alongside Eq (Task.warn warning : Task ε _) (Task.warn warning) := by
  constructor
  intro ends fails now session plain meets abreast
  exact .done rfl (meets.2 () now ⟨rfl, rfl⟩) (abreast.warn warning)

/-- The steps on the cache need not be the same: the other cache holds nothing anyway. -/
theorem cache (step other : CacheStep) :
    Alongside (fun _ _ => True) (Task.cache step : Task ε _) (Task.cache other) := by
  constructor
  intro ends fails now session plain meets abreast
  obtain ⟨permits, met⟩ := meets
  obtain ⟨next, leads, after⟩ := abreast.cache permits
  exact .done trivial (met _ next leads) after

end Alongside

end Task

/-! ### Bundles -/

namespace Bundle

def bare (bundle : Bundle) : Bundle := { bundle with computed := SortedMap.empty }

/-- The other bundle is the same with nothing computed, and what has been computed is true. -/
structure Alike (bundle other : Bundle) : Prop where
  bare : other = bundle.bare
  computed : bundle.Computed

theorem alike_of_ready {bundle : Bundle} (ready : bundle.Ready) :
    bundle.Alike bundle.record.markOld := by
  refine ⟨?_, ready.computed⟩
  rw [markOld_of_record (record_record bundle), record, bare, ← ready.old]

end Bundle

/-- What is left to do when the cache has been asked. -/
def fetchFound (id : NodeId) : Lookup → Task StorageError (Option Bundle)
  | .present bundle => return some bundle
  | .missing => return none
  | .unknown => do
      let generation ← Task.cache (.generation id)
      let loaded ← Task.call (.loadBundle id)
      let _ ← Task.cache (.fill id (loaded.map Bundle.markOld) generation)
      return loaded.map Bundle.markOld

theorem fetchBundle_eq (id : NodeId) :
    fetchBundle id = Task.cache (.lookup id) >>= fetchFound id := by
  rw [fetchBundle]
  congr 1
  funext found
  cases found <;> rfl

namespace Uncached

theorem run_fetchBundle {plain : Uncached} {kept : MemoryStorage.Kept} (same : kept.1 = plain.storage)
    (id : NodeId) :
    plain.run (fetchBundle id) =
      (.ok (((MemoryStorage.contents kept).bundles id).map Bundle.markOld), plain) := by
  have held : (MemoryStorage.contents kept).bundles id = (plain.storage.loadBundle id).toOption.join := by
    rw [← same]
    rfl
  have loads : ∃ found, plain.storage.loadBundle id = .ok found := by
    rw [← same]
    rcases kept.2.loads id with absent | ⟨bundle, _named, _recorded, present, _encoded⟩
    · exact ⟨none, absent⟩
    · exact ⟨some bundle, present⟩
  obtain ⟨found, loaded⟩ := loads
  rw [held, loaded]
  change ((Task.ofExcept (plain.storage.loadBundle id)).bind _).run serve plain = _
  rw [loaded]
  rfl

end Uncached

namespace Task.Alongside

/-- Where nothing is cached both do the same. -/
theorem fetchFound_unknown (id : NodeId) :
    Alongside Eq (fetchFound id .unknown) (fetchFound id .unknown) :=
  (cache _ _).bind (fun _any => (call _).bind (fun same => by
    subst same
    exact (cache _ _).bind (fun _any => pure rfl)))

theorem fetchBundle (id : NodeId) :
    Alongside (Option.Rel Bundle.Alike) (fetchBundle id) (fetchBundle id) := by
  constructor
  intro ends fails now session plain meets abreast
  obtain ⟨kept, same, sound, _valid⟩ := abreast.sound
  have loaded := Uncached.run_fetchBundle same id
  have contents : now.contents = MemoryStorage.contents kept := sound.contents.symm
  rw [fetchBundle_eq, Task.meets_bind] at meets
  obtain ⟨permits, met⟩ := meets
  obtain ⟨next, leads, after⟩ := abreast.cache permits
  have further := met _ next leads
  have tells := leads.contents.2
  rw [contents] at tells
  have ran : session.run (BundleStore.fetchBundle id) =
      (session.serve (.cache (.lookup id))).2.run
        (fetchFound id (session.serve (.cache (.lookup id))).1) := by
    rw [fetchBundle_eq]
    rfl
  rw [ran]
  generalize (session.serve (.cache (.lookup id))).2 = cached at after ⊢
  generalize (session.serve (.cache (.lookup id))).1 = found at further tells ⊢
  cases found with
  | present bundle =>
      rw [loaded, tells.2]
      exact .done (.some (Bundle.alike_of_ready tells.1)) further after
  | missing =>
      rw [loaded, tells]
      exact .done .none further after
  | unknown =>
      have outcome := (fetchFound_unknown id).outcome further after
      have plainly : plain.run (fetchFound id .unknown) = plain.run (BundleStore.fetchBundle id) := by
        rw [fetchBundle_eq]
        rfl
      rw [plainly, loaded] at outcome
      rw [loaded]
      generalize cached.run (fetchFound id .unknown) = left at outcome ⊢
      cases outcome with
      | done equal ended abreast =>
          refine .done ?_ ended abreast
          rw [equal]
          cases held : (MemoryStorage.contents kept).bundles id with
          | none => exact .none
          | some bundle =>
              have recorded := (MemoryStorage.contents kept).recorded held
              have alike := Bundle.alike_of_ready (Bundle.ready_of_record recorded)
              rw [recorded, Bundle.markOld_of_record recorded] at alike
              rw [Option.map_some, Bundle.markOld_of_record recorded]
              exact .some alike

/-- Nothing computed is ever written. -/
theorem storeBundle (bundle : Bundle) :
    Alongside Eq (Task.call (.storeBundle bundle)) (Task.call (.storeBundle bundle.bare)) := by
  constructor
  intro ends fails now session plain meets abreast
  exact (call (.storeBundle bundle)).outcome meets abreast

/-- The one without a cache may take a step on the cache alone, and is told that nothing is held. -/
theorem unheld {ε α β : Type} {alike : α → β → Prop} {task : Task ε α} {step : CacheStep}
    {next : step.Result → Task ε β} (alongside : Alongside alike task (next step.unheld)) :
    Alongside alike task (Task.cache step >>= next) :=
  ⟨fun meets abreast => alongside.outcome meets abreast⟩

end Task.Alongside

end BundleStore
