import BundleStore.Proofs.Storage.Blobs
import BundleStore.Task.Bundle

set_option autoImplicit false

/-! Tasks that ask a storage for nothing but blobs, and what they come to in a session: each call is
answered as the blobs that its callers see would have it. Reading a bundle is one of them. -/

namespace BundleStore

variable {ε α : Type} {faulty : StorageCall → Prop}

/-! ### Tasks that ask for blobs -/

/-- The call has been answered, or may fail. -/
def StorageCall.Excuses (faulty : StorageCall → Prop) (call : StorageCall) :
    Except StorageError call.Result → Prop
  | .ok _ => True
  | .error _ => faulty call

/-- Nothing is asked for but blobs, and no call fails but as told. -/
def handling (faulty : StorageCall → Prop) : Rule BlobView := fun action stated now =>
  match action with
  | .storage call => call.AsksBlobs now ∧ ∀ answer after, call.Excuses faulty answer →
      call.Handles answer now after → stated answer after
  | .cache _ => False
  | .warn _ => stated () now

theorem handling_monotone : (handling faulty).Monotone := by
  intro action now stated needed implied met
  cases action with
  | storage call =>
      exact ⟨met.1, fun answer after excused handles =>
        implied answer after (met.2 answer after excused handles)⟩
  | cache step => exact met
  | warn warning => exact implied () now met

theorem handling_call {call : StorageCall} {ends : call.Result → BlobView → Prop}
    {fails : StorageError → BlobView → Prop} {now : BlobView} (asks : call.AsksBlobs now)
    (answered : ∀ result after, now.Spares call.Reaches after → call.GivesBlobs result after →
      ends result after)
    (failed : ∀ error after, faulty call → now.Spares call.Reaches after →
      call.LacksBlobs after → fails error after) :
    (Task.call call).Meets (handling faulty) ends fails now := by
  refine Task.meets_call ⟨asks, fun answer after excused handles => ?_⟩
  cases answer with
  | ok result => exact answered result after handles.spares (handles.gives result rfl)
  | error error => exact failed error after excused handles.spares (handles.lacks error rfl)

/-- What is needed of the calls that a run makes, for only those to fail that may. -/
def Session.excusing (faulty : StorageCall → Prop) : Rule Session := fun action stated session =>
  (match action with
    | .storage call => call.Excuses faulty (session.serve (.storage call)).1
    | _ => True) ∧
  stated (session.serve action).1 (session.serve action).2

/-- No call fails but as told while the task is run. -/
def Session.FailsOnly (session : Session) (faulty : StorageCall → Prop) (task : Task ε α) : Prop :=
  task.Meets (excusing faulty) (fun _ _ => True) (fun _ _ => True) session

namespace Session

/-- No call is made to fail, and the storage has its blobs in order. -/
structure KeepsBlobs (session : Session) : Prop where
  healthy : session.faults = SortedMap.empty
  storage : session.storage.KeepsBlobs

variable {session : Session}

theorem KeepsBlobs.served (keeps : session.KeepsBlobs) (call : StorageCall) :
    (session.serve (.storage call)).1 = (session.storage.serve call).1 ∧
      (session.serve (.storage call)).2.storage = (session.storage.serve call).2.1 ∧
      (session.serve (.storage call)).2.faults = SortedMap.empty := by
  have came : session.serve (.storage call) =
      { session with calls := call.text :: session.calls }.direct call := by
    rw [Session.serve, recorded, keeps.healthy]
    rfl
  rw [came]
  exact ⟨rfl, rfl, keeps.healthy⟩

theorem run_handling (keeps : session.KeepsBlobs) {task : Task ε α} {ends : α → BlobView → Prop}
    {fails : ε → BlobView → Prop}
    (meets : task.Meets (handling faulty) ends fails session.storage.blobView)
    (only : session.FailsOnly faulty task) :
    (session.run task).2.KeepsBlobs ∧
      match (session.run task).1 with
      | .ok value => ends value (session.run task).2.storage.blobView
      | .error error => fails error (session.run task).2.storage.blobView := by
  induction task generalizing session with
  | done value => exact ⟨keeps, meets⟩
  | fail error => exact ⟨keeps, meets⟩
  | act action rest ih =>
      obtain ⟨excused, further⟩ := only
      cases action with
      | cache step => exact meets.elim
      | warn warning => exact ih () ⟨keeps.healthy, keeps.storage⟩ meets further
      | storage call =>
          obtain ⟨asks, met⟩ := meets
          obtain ⟨answer, left, healthy⟩ := keeps.served call
          obtain ⟨still, handles⟩ := Storage.serve_handles keeps.storage asks
          rw [← answer, ← left] at handles
          rw [← left] at still
          exact ih _ ⟨healthy, still⟩ (met _ _ excused handles) further

/-- In memory nothing fails but the reading of a blob that is not there. -/
theorem KeepsBlobs.failsOnly_of_memory (keeps : session.KeepsBlobs) (memory : session.storage.files? = none)
    {task : Task ε α} {ends : α → BlobView → Prop} {fails : ε → BlobView → Prop}
    (meets : task.Meets (handling (fun _ => True)) ends fails session.storage.blobView) :
    session.FailsOnly (fun call => ∃ blob, call = .getBlob blob) task := by
  induction task generalizing session with
  | done value => trivial
  | fail error => trivial
  | act action rest ih =>
      cases action with
      | cache step => exact meets.elim
      | warn warning => exact ⟨trivial, ih () ⟨keeps.healthy, keeps.storage⟩ memory meets⟩
      | storage call =>
          obtain ⟨asks, met⟩ := meets
          obtain ⟨answer, left, healthy⟩ := keeps.served call
          obtain ⟨still, handles⟩ := Storage.serve_handles keeps.storage asks
          have answers : call.Excuses (fun call => ∃ blob, call = .getBlob blob)
                (session.storage.serve call).1 ∧ (session.storage.serve call).2.1.files? = none := by
            cases storage : session.storage with
            | files contents =>
                rw [storage] at memory
                cases memory
            | _ =>
                cases call with
                | getBlob blob =>
                    refine ⟨?_, rfl⟩
                    cases (Storage.serve _ (.getBlob blob)).1 with
                    | ok bytes => trivial
                    | error error => exact ⟨blob, rfl⟩
                | createBlobId property place => exact ⟨trivial, rfl⟩
                | putBlob blob bytes => exact ⟨trivial, rfl⟩
                | removeBlob blob => exact ⟨trivial, rfl⟩
                | _ => exact asks.elim
          rw [← answer, ← left] at handles
          rw [← left] at still
          rw [← answer, ← left] at answers
          refine ⟨answers.1, ih _ ⟨healthy, still⟩ answers.2 (met _ _ ?_ handles)⟩
          cases (session.serve (.storage call)).1 <;> exact trivial

end Session

/-! ### Reading -/

namespace BlobView

def value (view : BlobView) : StoredValue → Option Value
  | .inline value => some value
  | .blob blob _ => (view.bytes? blob).map Value.binary

def state (view : BlobView) (stored : StoredProperty) : Option Property :=
  (stored.values.mapM view.value).map (fun values =>
    ⟨stored.id, stored.type, stored.multiple, values, .existing, stored.modCount⟩)

variable {view now : BlobView}

theorem state_congr {stored : StoredProperty}
    (same : ∀ blob ∈ stored.blobs, now.bytes? blob = view.bytes? blob) :
    now.state stored = view.state stored := by
  have values (list : List StoredValue)
      (same : ∀ blob ∈ list.filterMap StoredValue.blob?, now.bytes? blob = view.bytes? blob) :
      list.mapM now.value = list.mapM view.value := by
    induction list with
    | nil => rfl
    | cons head rest ih =>
        have first : now.value head = view.value head := by
          cases head with
          | inline value => rfl
          | blob blob length =>
              exact congrArg (Option.map Value.binary) (same blob List.mem_cons_self)
        have others := ih (fun blob held => by
          obtain ⟨other, member, own⟩ := List.mem_filterMap.mp held
          exact same blob (List.mem_filterMap.mpr ⟨other, List.mem_cons_of_mem _ member, own⟩))
        rw [List.mapM_cons, List.mapM_cons, first, others]
  rw [state, state, values stored.values same]

end BlobView

namespace StoredProperty

theorem fetchValues_handling (list : List StoredValue) {view now : BlobView}
    (same : now.bytes? = view.bytes?) :
    (list.mapM fetchValue).Meets (handling faulty)
      (fun values _ => list.mapM view.value = some values)
      (fun _ _ => list.mapM view.value = none) now := by
  induction list generalizing now with
  | nil => rfl
  | cons head tail ih =>
      have whole : (head :: tail).mapM view.value =
          (view.value head >>= fun first =>
            tail.mapM view.value >>= fun others => pure (first :: others)) := List.mapM_cons
      have split : (head :: tail).mapM fetchValue =
          (fetchValue head >>= fun first =>
            tail.mapM fetchValue >>= fun others => pure (first :: others)) := List.mapM_cons
      rw [split, Task.meets_bind, whole]
      have rest {next : BlobView} (still : next.bytes? = view.bytes?) {value : Value}
          (found : view.value head = some value) :
          (tail.mapM fetchValue >>= fun others => pure (value :: others)).Meets (handling faulty)
              (fun values _ => (view.value head >>= fun first =>
                tail.mapM view.value >>= fun others => pure (first :: others)) = some values)
              (fun _ _ => (view.value head >>= fun first =>
                tail.mapM view.value >>= fun others => pure (first :: others)) = none) next := by
        rw [Task.meets_bind, found]
        refine (ih still).mono handling_monotone (fun values _next others => ?_)
          (fun _error _next lacking => ?_)
        · rw [others]
          rfl
        · rw [lacking]
          rfl
      cases head with
      | inline value => exact rest same rfl
      | blob blob length =>
          rw [fetchValue, Task.meets_bind]
          refine handling_call trivial (fun bytes after spares held => ?_)
            (fun error after _faulty spares lacks => ?_)
          · have still : after.bytes? = view.bytes? :=
              (funext (fun _blob => spares.bytes (fun _near none => none.elim))).trans same
            refine rest still ?_
            rw [BlobView.value, ← still, show after.bytes? blob = some bytes from held]
            rfl
          · have still : after.bytes? = view.bytes? :=
              (funext (fun _blob => spares.bytes (fun _near none => none.elim))).trans same
            rw [BlobView.value, ← still, show after.bytes? blob = none from lacks]
            rfl

theorem toProperty_handling (stored : StoredProperty) (now : BlobView) :
    stored.toProperty.Meets (handling faulty) (fun state _ => now.state stored = some state)
      (fun _ _ => now.state stored = none) now := by
  rw [toProperty, Task.meets_bind]
  refine (fetchValues_handling stored.values rfl).mono handling_monotone
    (fun values _next found => ?_) (fun _error _next lacking => ?_)
  · rw [Task.meets_pure, BlobView.state, found]
    rfl
  · rw [BlobView.state, lacking]
    rfl

end StoredProperty

/-- What is read of a bundle: what its entry stands for, or what was computed before. -/
def Bundle.read (bundle : Bundle) (view : BlobView) (name : Name) : Option (Option Property) :=
  match bundle.properties.find? name with
  | some stored => (view.state stored).map some
  | none => some (bundle.computed.find? name)

theorem Bundle.property?_handling (bundle : Bundle) (name : Name) (now : BlobView) :
    (bundle.property? name).Meets (handling faulty)
      (fun found _ => bundle.read now name = some found) (fun _ _ => bundle.read now name = none)
      now := by
  rw [property?, read]
  cases bundle.properties.find? name with
  | none => rfl
  | some stored =>
      rw [Task.meets_bind]
      refine (stored.toProperty_handling now).mono handling_monotone
        (fun state _next found => ?_) (fun _error _next lacking => ?_)
      · change (now.state stored).map some = some (some state)
        rw [found]
        rfl
      · change (now.state stored).map some = none
        rw [lacking]
        rfl

theorem Session.failsOnly_any (session : Session) (task : Task ε α) :
    session.FailsOnly (fun _ => True) task := by
  induction task generalizing session with
  | done value => trivial
  | fail error => trivial
  | act action rest ih =>
      refine ⟨?_, ih _ _⟩
      cases action with
      | storage call =>
          change call.Excuses (fun _ => True) (session.serve (.storage call)).1
          cases (session.serve (.storage call)).1 <;> exact trivial
      | cache step => trivial
      | warn warning => trivial

theorem Session.KeepsBlobs.read {session : Session} (keeps : session.KeepsBlobs) (bundle : Bundle)
    (name : Name) :
    (session.run (bundle.property? name)).1.toOption =
      bundle.read session.storage.blobView name := by
  obtain ⟨_still, outcome⟩ := run_handling keeps
    (bundle.property?_handling name session.storage.blobView) (session.failsOnly_any _)
  cases found : (session.run (bundle.property? name)).1 with
  | ok value =>
      rw [found] at outcome
      exact outcome.symm
  | error error =>
      rw [found] at outcome
      exact outcome.symm

end BundleStore
