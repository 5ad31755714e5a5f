import BundleStore.Task.Action

set_option autoImplicit false

/-! A task is a value that says what to do next: finish, fail, or take an action and go on with
its result. Running a task to its end answers every action from one state; taking one action at
a time leaves room for others in between. -/

namespace BundleStore

inductive Task (ε α : Type) where
  | done (value : α)
  | fail (error : ε)
  | act (action : Action) (next : action.Result → Task ε α)

namespace Task

variable {ε ε' α β σ : Type}

def bind : Task ε α → (α → Task ε β) → Task ε β
  | done value, next => next value
  | fail error, _ => fail error
  | act action rest, next => act action (fun result => (rest result).bind next)

instance : Monad (Task ε) where
  pure := done
  bind := bind

def mapError (change : ε → ε') : Task ε α → Task ε' α
  | done value => done value
  | fail error => fail (change error)
  | act action rest => act action (fun result => (rest result).mapError change)

/-- Goes on with the second task where the first one fails. -/
def orElse : Task ε α → (ε → Task ε' α) → Task ε' α
  | done value, _ => done value
  | fail error, other => other error
  | act action rest, other => act action (fun result => (rest result).orElse other)

def ofExcept : Except ε α → Task ε α
  | .ok value => done value
  | .error error => fail error

/-- The result of a call, an error included, is handed on. -/
def attempt (call : StorageCall) : Task ε (Except StorageError call.Result) :=
  act (.storage call) done

def call (call : StorageCall) : Task StorageError call.Result :=
  act (.storage call) ofExcept

def cache (step : CacheStep) : Task ε step.Result := act (.cache step) done

def warn (warning : Warning) : Task ε Unit := act (.warn warning) done

/-- Answers one action from a state. -/
abbrev Serve (σ : Type) := (action : Action) → σ → action.Result × σ

def run (serve : Serve σ) : Task ε α → σ → Except ε α × σ
  | done value, state => (.ok value, state)
  | fail error, state => (.error error, state)
  | act action rest, state =>
      let (result, state) := serve action state
      (rest result).run serve state

@[simp]
theorem run_done (serve : Serve σ) (value : α) (state : σ) :
    (done value : Task ε α).run serve state = (.ok value, state) := rfl

@[simp]
theorem run_fail (serve : Serve σ) (error : ε) (state : σ) :
    (fail error : Task ε α).run serve state = (.error error, state) := rfl

@[simp]
theorem run_act (serve : Serve σ) (action : Action) (rest : action.Result → Task ε α)
    (state : σ) :
    (act action rest).run serve state =
      (rest (serve action state).1).run serve (serve action state).2 := rfl

theorem run_bind (serve : Serve σ) (task : Task ε α) (next : α → Task ε β) (state : σ) :
    (task >>= next).run serve state =
      match task.run serve state with
      | (.ok value, after) => (next value).run serve after
      | (.error error, after) => (.error error, after) := by
  change (task.bind next).run serve state = _
  induction task generalizing state with
  | done value => rfl
  | fail error => rfl
  | act action rest ih => exact ih (serve action state).1 (serve action state).2

end Task

end BundleStore
