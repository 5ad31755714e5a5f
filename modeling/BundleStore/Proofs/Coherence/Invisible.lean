import BundleStore.Proofs.Coherence.Alongside
import BundleStore.Proofs.Coherence.Runs

set_option autoImplicit false

/-! The cache is invisible. A session in memory does one operation after another, with any budget,
any number of shards and any spread of the nodes over them, and nodes may be evicted and the cache
emptied in between. All that is answered, and all that is stored in the end, is what a repository
answers and stores that loads every bundle where it is needed. -/

namespace BundleStore

/-- What a repository is asked for by one who waits for the answer. -/
inductive Operation where
  | store (log : ChangeLog)
  | loadNode (id : NodeId)
  | existsNode (id : NodeId)
  | loadProperty (id : PropertyId)
  | existsProperty (id : PropertyId)
  | loadReferences (target : NodeId)
  | existsReferences (target : NodeId)
  | externalUpdate (log : ChangeLog)
  | check (ids : List NodeId) (recursive repair : Bool)

namespace Operation

abbrev Result : Operation → Type
  | .store _ => Unit
  | .loadNode _ => Node
  | .existsNode _ => Bool
  | .loadProperty _ => Property
  | .existsProperty _ => Bool
  | .loadReferences _ => References
  | .existsReferences _ => Bool
  | .externalUpdate _ => Unit
  | .check _ _ _ => List Problem

def task (threshold : Nat) : (operation : Operation) → Task RepositoryError operation.Result
  | .store log => Repository.store threshold log
  | .loadNode id => Repository.loadNode id
  | .existsNode id => Repository.existsNode id
  | .loadProperty id => Repository.loadProperty id
  | .existsProperty id => Repository.existsProperty id
  | .loadReferences target => Repository.loadReferences target
  | .existsReferences target => Repository.existsReferences target
  | .externalUpdate log => Repository.externalUpdate log
  | .check ids recursive repair => Repository.check ids recursive repair

theorem alongside (operation : Operation) (threshold : Nat) :
    Task.Alongside Eq (operation.task threshold) (operation.task threshold) := by
  cases operation with
  | store log => exact Repository.store_alongside threshold log
  | loadNode id => exact Repository.loadNode_alongside id
  | existsNode id => exact Repository.existsNode_alongside id
  | loadProperty id => exact Repository.loadProperty_alongside id
  | existsProperty id => exact Repository.existsProperty_alongside id
  | loadReferences target => exact Repository.loadReferences_alongside target
  | existsReferences target => exact Repository.existsReferences_alongside target
  | externalUpdate log => exact Repository.externalUpdate_alongside log
  | check ids recursive repair => exact Repository.check_alongside ids recursive repair

end Operation

/-- The task keeps to the writer's order, and leaves nothing owed to the cache. -/
abbrev Task.Settles {ε α : Type} (task : Task ε α) (contents : Contents) : Prop :=
  task.Meets (writing Faults.none) (fun _ next => next.stage = .free)
    (fun _ next => next.stage = .free) ⟨.free, contents⟩

theorem Task.Answers.settles {ε α : Type} {task : Task ε α} {contents : Contents}
    {result : Except ε α} (answers : task.Answers contents result) : task.Settles contents :=
  answers.mono writing_monotone (fun _value _next met => met.1 ▸ rfl)
    (fun _error _next met => met.1 ▸ rfl)

theorem Writes.settles {α : Type} {task : Task RepositoryError α}
    (writes : Writes Faults.none (fun _ => True) task) (contents : Contents) :
    task.Settles contents :=
  (writes contents trivial).mono writing_monotone (fun _value _next met => met.1)
    (fun _error _next met => met.1)

theorem Operation.settles (operation : Operation) (threshold : Nat) (contents : Contents) :
    (operation.task threshold).Settles contents := by
  cases operation with
  | store log =>
      exact (Writes.store threshold log (fun _ _ _ _ => trivial) (fun _ _ _ _ => trivial)).settles _
  | loadNode id => exact (Repository.loadNode_answers id).settles
  | existsNode id => exact (Repository.existsNode_answers id).settles
  | loadProperty id => exact (Repository.loadProperty_answers id).settles
  | existsProperty id => exact (Repository.existsProperty_answers id).settles
  | loadReferences target => exact (Repository.loadReferences_answers target).settles
  | existsReferences target => exact (Repository.existsReferences_answers target).settles
  | externalUpdate log => exact (Writes.externalUpdate log).settles _
  | check ids recursive repair =>
      have whole : ((Repository.check ids recursive repair).forget).Settles contents :=
        (Writes.check ids recursive repair (fun _ _ _ _ => trivial)).settles _
      exact Task.meets_bind.mp whole

/-! ### One operation after another -/

structure Answer where
  operation : Operation
  result : Except RepositoryError operation.Result

inductive Event where
  | ask (operation : Operation)
  | evict (id : NodeId)
  | close

def Event.operation? : Event → Option Operation
  | .ask operation => some operation
  | _ => none

/-- The answers to what is asked, and what the session has become. -/
def Session.attend : List Event → Session → List Answer × Session
  | [], session => ([], session)
  | .ask operation :: rest, session =>
      let (result, after) := session.run (operation.task session.blobThreshold)
      let (answers, last) := attend rest after
      (⟨operation, result⟩ :: answers, last)
  | .evict id :: rest, session => attend rest (session.run (Repository.evict id)).2
  | .close :: rest, session => attend rest (session.run Repository.close).2

def Uncached.attend : List Operation → Uncached → List Answer × Uncached
  | [], plain => ([], plain)
  | operation :: rest, plain =>
      let (result, after) := plain.run (operation.task plain.blobThreshold)
      let (answers, last) := attend rest after
      (⟨operation, result⟩ :: answers, last)

def Uncached.empty (blobThreshold : Nat) : Uncached := ⟨MemoryStorage.empty, blobThreshold, []⟩

/-- The same session with the nodes spread over the shards of its cache in another way. -/
def Session.spreading (session : Session) (spread : NodeId → Nat) : Session :=
  { session with cache := ⟨{ session.cache.entries with spread }⟩ }

/-- Nothing is owed to the cache. -/
def Level (session : Session) (plain : Uncached) : Prop :=
  ∃ now, now.stage = .free ∧ Abreast now session plain

namespace Level

variable {session : Session} {plain : Uncached}

theorem start {settings : Settings}
    (started : Session.start settings (.memory MemoryStorage.empty) = .ok session)
    (spread : NodeId → Nat) :
    Level (session.spreading spread) (Uncached.empty settings.blobThreshold) := by
  rw [Session.start] at started
  split at started
  · cases started
  · cases started
    let kept : MemoryStorage.Kept := ⟨MemoryStorage.empty, MemoryStorage.empty_sound⟩
    refine ⟨⟨.free, MemoryStorage.contents kept⟩, rfl, rfl, rfl, rfl, rfl, kept, rfl, ?_, trivial⟩
    exact System.fresh_sound _ _ _ spread

/-- One operation: the answers are the same. -/
theorem ask (level : Level session plain) (operation : Operation) :
    (session.run (operation.task session.blobThreshold)).1 =
        (plain.run (operation.task plain.blobThreshold)).1 ∧
      Level (session.run (operation.task session.blobThreshold)).2
        (plain.run (operation.task plain.blobThreshold)).2 := by
  obtain ⟨⟨_stage, contents⟩, free, abreast⟩ := level
  obtain rfl := free
  rw [abreast.threshold]
  have outcome := (operation.alongside plain.blobThreshold).outcome
    (operation.settles plain.blobThreshold contents) abreast
  generalize session.run (operation.task plain.blobThreshold) = left at outcome ⊢
  generalize plain.run (operation.task plain.blobThreshold) = right at outcome ⊢
  cases outcome with
  | done same ended abreast => exact ⟨congrArg Except.ok same, _, ended, abreast⟩
  | failed broken abreast => exact ⟨rfl, _, broken, abreast⟩

theorem evict (level : Level session plain) (id : NodeId) :
    Level (session.run (Repository.evict id)).2 plain := by
  obtain ⟨now, free, abreast⟩ := level
  have permits : now.Permits (.cache (.invalidate id)) := trivial
  obtain ⟨next, leads, after⟩ := abreast.cache permits
  exact ⟨next, leads.stage.trans free, after⟩

theorem close (level : Level session plain) : Level (session.run Repository.close).2 plain := by
  obtain ⟨now, free, abreast⟩ := level
  have permits : now.Permits (.cache .clear) := trivial
  obtain ⟨next, leads, after⟩ := abreast.cache permits
  exact ⟨next, leads.stage, after⟩

theorem attend (level : Level session plain) (events : List Event) :
    (session.attend events).1 = (plain.attend (events.filterMap Event.operation?)).1 ∧
      Level (session.attend events).2 (plain.attend (events.filterMap Event.operation?)).2 := by
  induction events generalizing session plain with
  | nil => exact ⟨rfl, level⟩
  | cons event rest ih =>
      cases event with
      | ask operation =>
          obtain ⟨same, after⟩ := level.ask operation
          obtain ⟨answers, last⟩ := ih after
          constructor
          · exact congrArg₂ List.cons (congrArg (Answer.mk operation) same) answers
          · exact last
      | evict id => exact ih (level.evict id)
      | close => exact ih level.close

end Level

/-- Nothing of the cache is to be seen in the answers, nor in what is stored and warned of. -/
theorem cache_is_invisible {settings : Settings} {session : Session}
    (started : Session.start settings (.memory MemoryStorage.empty) = .ok session)
    (spread : NodeId → Nat) (events : List Event) :
    let cached := (session.spreading spread).attend events
    let plain := (Uncached.empty settings.blobThreshold).attend (events.filterMap Event.operation?)
    cached.1 = plain.1 ∧ cached.2.storage = .memory plain.2.storage ∧
      cached.2.warnings = plain.2.warnings := by
  obtain ⟨answers, _now, _free, abreast⟩ := (Level.start started spread).attend events
  exact ⟨answers, abreast.storage, abreast.warnings⟩

/-- A node is stored, read, evicted, read again, and deleted; then it is gone. -/
def visitEvents : List Event :=
  let node := Node.fresh NodeId.zero Name.unstructured none
  [.ask (.store { ChangeLog.empty with added := [.node node] }),
    .ask (.loadProperty ⟨NodeId.zero, Name.primaryType⟩), .evict NodeId.zero,
    .ask (.loadProperty ⟨NodeId.zero, Name.primaryType⟩),
    .ask (.store { ChangeLog.empty with deleted := [.node node] }), .close,
    .ask (.existsNode NodeId.zero)]

def visitSettings : Settings := ⟨1, 16, 3⟩

def visitSession : Session :=
  { storage := .memory MemoryStorage.empty
    cache := BundleCache.new (UInt64.ofNat visitSettings.cacheBytes) 3 Session.spread
    blobThreshold := 16
    faults := SortedMap.empty
    calls := []
    warnings := [] }

theorem visit_is_invisible :
    Session.start visitSettings (.memory MemoryStorage.empty) = .ok visitSession ∧
      ((visitSession.spreading (fun _ => 2)).attend visitEvents).1 =
        ((Uncached.empty 16).attend (visitEvents.filterMap Event.operation?)).1 := by
  have started : Session.start visitSettings (.memory MemoryStorage.empty) = .ok visitSession := rfl
  exact ⟨started, (cache_is_invisible started (fun _ => 2) visitEvents).1⟩

end BundleStore
