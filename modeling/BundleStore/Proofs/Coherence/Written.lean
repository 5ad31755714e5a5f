import BundleStore.Proofs.Coherence.Invisible

set_option autoImplicit false

/-! What is read in a session depends on what has been written before, and on nothing else. Where
nothing is kept between operations this is plain, since one who only reads stores nothing; and the
cache is invisible. -/

namespace BundleStore

/-- The request that the operation makes, if it is one that writes nothing. -/
def Operation.request? : Operation → Option Request
  | .loadNode id => some (.loadNode id)
  | .existsNode id => some (.existsNode id)
  | .loadProperty id => some (.loadProperty id)
  | .existsProperty id => some (.existsProperty id)
  | .loadReferences target => some (.loadReferences target)
  | .existsReferences target => some (.existsReferences target)
  | .store _ | .externalUpdate _ | .check _ _ _ => none

def Operation.writes (operation : Operation) : Bool := operation.request?.isNone

/-- What is done that may write, in the order in which it is done. -/
def Event.writes (events : List Event) : List Operation :=
  (events.filterMap Event.operation?).filter Operation.writes

namespace Uncached

/-- The same but for the warnings. -/
structure Same (left right : Uncached) : Prop where
  storage : left.storage = right.storage
  threshold : left.blobThreshold = right.blobThreshold

variable {left right : Uncached}

theorem Same.refl (plain : Uncached) : plain.Same plain := ⟨rfl, rfl⟩

theorem Same.trans {last : Uncached} (early : left.Same right) (late : right.Same last) :
    left.Same last := ⟨early.storage.trans late.storage, early.threshold.trans late.threshold⟩

theorem Same.symm (same : left.Same right) : right.Same left :=
  ⟨same.storage.symm, same.threshold.symm⟩

theorem Same.serve (same : left.Same right) (action : Action) :
    (Uncached.serve action left).1 = (Uncached.serve action right).1 ∧
      Same (Uncached.serve action left).2 (Uncached.serve action right).2 := by
  obtain ⟨storage, threshold, _warnings⟩ := left
  obtain ⟨_storage, _threshold, _others⟩ := right
  obtain ⟨rfl, rfl⟩ := same
  cases action with
  | storage call => exact ⟨rfl, rfl, rfl⟩
  | cache step => exact ⟨rfl, rfl, rfl⟩
  | warn warning => exact ⟨rfl, rfl, rfl⟩

variable {ε α : Type}

theorem Same.run (same : left.Same right) (task : Task ε α) :
    (left.run task).1 = (right.run task).1 ∧ Same (left.run task).2 (right.run task).2 := by
  induction task generalizing left right with
  | done value => exact ⟨rfl, same⟩
  | fail error => exact ⟨rfl, same⟩
  | act action rest ih =>
      obtain ⟨answer, after⟩ := same.serve action
      have step : right.run (.act action rest) =
          (Uncached.serve action right).2.run (rest (Uncached.serve action left).1) := by
        rw [answer]
        rfl
      rw [step]
      exact ih _ after

/-- Nothing is stored by one who only reads. -/
theorem same_of_reading {task : Task ε α} {ends : α → Stage → Prop} {fails : ε → Stage → Prop}
    {stage : Stage} (meets : task.Meets reading ends fails stage) (plain : Uncached) :
    plain.Same (plain.run task).2 := by
  induction task generalizing plain stage with
  | done value => exact .refl plain
  | fail error => exact .refl plain
  | act action rest ih =>
      obtain ⟨permits, met⟩ := meets
      have still : plain.Same (Uncached.serve action plain).2 := by
        cases action with
        | storage call => cases call <;> first | exact .refl plain | exact (permits : False).elim
        | cache step => exact .refl plain
        | warn warning => exact ⟨rfl, rfl⟩
      exact still.trans (ih _ (met _) _)

theorem same_of_request {operation : Operation} {request : Request}
    (asks : operation.request? = some request) (plain : Uncached) :
    plain.Same (plain.run (operation.task plain.blobThreshold)).2 := by
  have reads := Reads.request request
  cases operation with
  | store log => cases asks
  | externalUpdate log => cases asks
  | check ids recursive repair => cases asks
  | _ =>
      cases asks
      exact same_of_reading (Task.meets_bind.mp reads) plain

theorem Same.attend (same : left.Same right) (operations : List Operation) :
    Same (left.attend operations).2 (right.attend (operations.filter Operation.writes)).2 := by
  induction operations generalizing left right with
  | nil => exact same
  | cons operation rest ih =>
      cases asks : operation.request? with
      | none =>
          have writes : operation.writes = true := congrArg Option.isNone asks
          rw [List.filter_cons_of_pos writes]
          have after := (same.run (operation.task left.blobThreshold)).2
          change Same (Uncached.attend rest (left.run (operation.task left.blobThreshold)).2).2
            (Uncached.attend _ (right.run (operation.task right.blobThreshold)).2).2
          rw [← same.threshold]
          exact ih after
      | some request =>
          have quiet : ¬ operation.writes = true := by
            rw [Operation.writes, asks]
            exact Bool.false_ne_true
          rw [List.filter_cons_of_neg quiet]
          exact ih ((same_of_request asks left).symm.trans same)

end Uncached

/-- A property is read the same after all that has been written, whatever has been read in between
and whatever the caches are like. -/
theorem Session.property_of_writes {settings others : Settings} {session other : Session}
    (started : Session.start settings (.memory MemoryStorage.empty) = .ok session)
    (startedToo : Session.start others (.memory MemoryStorage.empty) = .ok other)
    (threshold : settings.blobThreshold = others.blobThreshold) (spread spreadToo : NodeId → Nat)
    {events : List Event} {otherEvents : List Event}
    (same : Event.writes events = Event.writes otherEvents) (id : PropertyId) :
    (((session.spreading spread).attend events).2.run (Repository.loadProperty id)).1 =
      (((other.spreading spreadToo).attend otherEvents).2.run (Repository.loadProperty id)).1 := by
  have left := ((Level.start started spread).attend events).2
  have right := ((Level.start startedToo spreadToo).attend otherEvents).2
  have written : Uncached.Same
      ((Uncached.empty settings.blobThreshold).attend (events.filterMap Event.operation?)).2
      ((Uncached.empty others.blobThreshold).attend (otherEvents.filterMap Event.operation?)).2 := by
    have early := (Uncached.Same.refl (Uncached.empty settings.blobThreshold)).attend
      (events.filterMap Event.operation?)
    have late := (Uncached.Same.refl (Uncached.empty others.blobThreshold)).attend
      (otherEvents.filterMap Event.operation?)
    rw [threshold] at early ⊢
    rw [← Event.writes, same, Event.writes] at early
    exact early.trans late.symm
  exact (left.ask (.loadProperty id)).1.trans
    ((written.run (Repository.loadProperty id)).1.trans (right.ask (.loadProperty id)).1.symm)

end BundleStore
