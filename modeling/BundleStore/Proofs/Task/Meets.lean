import BundleStore.Task.Basic

set_option autoImplicit false

/-! What every run of a task comes to. A rule says of each action what has to hold before it so
that a given statement holds of its result and of the state after it; folded over a task it says
the same of the whole task, whoever answers its actions. The loops of a task are described by
the chain of its passes, and a loop that fails by the passes that went well and the one that
did not. -/

namespace BundleStore

/-- For each action, what is needed so that a statement holds of its result and the state after
it. -/
abbrev Rule (σ : Type) := (action : Action) → (action.Result → σ → Prop) → σ → Prop

/-- More is stated of the result than is needed, and the action is still all right. -/
def Rule.Monotone {σ : Type} (rule : Rule σ) : Prop :=
  ∀ (action : Action) (state : σ) (stated needed : action.Result → σ → Prop),
    (∀ result after, stated result after → needed result after) →
    rule action stated state → rule action needed state

namespace Task

variable {ε ε' α β σ : Type}

/-- Every action is as the rule wants it, and the task ends or fails as stated. -/
def Meets (rule : Rule σ) (ends : α → σ → Prop) (fails : ε → σ → Prop) : Task ε α → σ → Prop
  | done value, state => ends value state
  | fail error, state => fails error state
  | act action rest, state =>
      rule action (fun result after => (rest result).Meets rule ends fails after) state

variable {rule : Rule σ} {ends : α → σ → Prop} {fails : ε → σ → Prop}

@[simp]
theorem meets_done {value : α} {state : σ} :
    (done value : Task ε α).Meets rule ends fails state ↔ ends value state := Iff.rfl

@[simp]
theorem meets_pure {value : α} {state : σ} :
    (pure value : Task ε α).Meets rule ends fails state ↔ ends value state := Iff.rfl

@[simp]
theorem meets_fail {error : ε} {state : σ} :
    (fail error : Task ε α).Meets rule ends fails state ↔ fails error state := Iff.rfl

theorem meets_act {action : Action} {rest : action.Result → Task ε α} {state : σ} :
    (act action rest).Meets rule ends fails state ↔
      rule action (fun result after => (rest result).Meets rule ends fails after) state := Iff.rfl

theorem meets_bind {task : Task ε α} {next : α → Task ε β} {ends : β → σ → Prop} {state : σ} :
    (task >>= next).Meets rule ends fails state ↔
      task.Meets rule (fun value after => (next value).Meets rule ends fails after) fails state := by
  change (task.bind next).Meets rule ends fails state ↔ _
  induction task generalizing state with
  | done value => rfl
  | fail error => rfl
  | act action rest ih =>
      have same : (fun result after => ((rest result).bind next).Meets rule ends fails after) =
          fun result after => (rest result).Meets rule
            (fun value after => (next value).Meets rule ends fails after) fails after := by
        funext result after
        exact propext (ih result)
      rw [bind, meets_act, meets_act, same]

theorem meets_mapError {change : ε' → ε} {task : Task ε' α} {state : σ} :
    (task.mapError change).Meets rule ends fails state ↔
      task.Meets rule ends (fun error after => fails (change error) after) state := by
  induction task generalizing state with
  | done value => rfl
  | fail error => rfl
  | act action rest ih =>
      have same : (fun result after => ((rest result).mapError change).Meets rule ends fails after) =
          fun result after => (rest result).Meets rule ends
            (fun error after => fails (change error) after) after := by
        funext result after
        exact propext (ih result)
      rw [mapError, meets_act, meets_act, same]

theorem meets_orElse {task : Task ε' α} {other : ε' → Task ε α} {state : σ} :
    (task.orElse other).Meets rule ends fails state ↔
      task.Meets rule ends (fun error after => (other error).Meets rule ends fails after) state := by
  induction task generalizing state with
  | done value => rfl
  | fail error => rfl
  | act action rest ih =>
      have same : (fun result after => ((rest result).orElse other).Meets rule ends fails after) =
          fun result after => (rest result).Meets rule ends
            (fun error after => (other error).Meets rule ends fails after) after := by
        funext result after
        exact propext (ih result)
      rw [orElse, meets_act, meets_act, same]

theorem Meets.mono (monotone : rule.Monotone) {task : Task ε α} {ends' : α → σ → Prop}
    {fails' : ε → σ → Prop} {state : σ} (meets : task.Meets rule ends fails state)
    (ended : ∀ value after, ends value after → ends' value after)
    (failed : ∀ error after, fails error after → fails' error after) :
    task.Meets rule ends' fails' state := by
  induction task generalizing state with
  | done value => exact ended value state meets
  | fail error => exact failed error state meets
  | act action rest ih => exact monotone action state _ _ (fun result _after met => ih result met) meets

/-- One action answers for the state it is taken in, whatever the task does with its result. -/
theorem meets_call {call : StorageCall} {ends : call.Result → σ → Prop}
    {fails : StorageError → σ → Prop} {state : σ}
    (answered : rule (.storage call) (fun result after =>
      match result with
      | .ok value => ends value after
      | .error error => fails error after) state) :
    (Task.call call).Meets rule ends fails state := by
  rw [Task.call, meets_act]
  refine cast (congrArg (fun stated => rule (.storage call) stated state) ?_) answered
  funext result after
  cases result <;> rfl

instance : LawfulMonad (Task ε) := LawfulMonad.mk' (Task ε)
  (fun task => by
    change task.bind (fun value => done value) = task
    induction task with
    | done value => rfl
    | fail error => rfl
    | act action rest ih => exact congrArg (act action) (funext ih))
  (fun _ _ => rfl)
  (fun task next last => by
    change (task.bind next).bind last = task.bind (fun value => (next value).bind last)
    induction task with
    | done value => rfl
    | fail error => rfl
    | act action rest ih => exact congrArg (act action) (funext ih))

end Task

/-- The passes of a loop over the list, one for each element, lead from the first state to the
last. -/
inductive Chain {β τ : Type} (pass : β → τ → τ → Prop) : List β → τ → τ → Prop where
  | nil (state : τ) : Chain pass [] state state
  | cons {element : β} {rest : List β} {first next last : τ}
      (head : pass element first next) (tail : Chain pass rest next last) :
      Chain pass (element :: rest) first last

/-- Some passes of the loop go well, and the next one breaks it off. -/
inductive Breaks {β τ υ : Type} (pass : β → τ → τ → Prop) (broken : β → τ → υ → Prop) :
    List β → τ → υ → Prop where
  | here {element : β} {rest : List β} {first : τ} {last : υ} (head : broken element first last) :
      Breaks pass broken (element :: rest) first last
  | later {element : β} {rest : List β} {first next : τ} {last : υ}
      (head : pass element first next) (tail : Breaks pass broken rest next last) :
      Breaks pass broken (element :: rest) first last

namespace Chain

variable {β τ : Type} {pass : β → τ → τ → Prop}

/-- What each pass over an element of the list keeps is kept by the loop. -/
theorem preserves {list : List β} {first last : τ} (chain : Chain pass list first last)
    (holds : τ → Prop)
    (kept : ∀ element ∈ list, ∀ before after, pass element before after →
      holds before → holds after)
    (start : holds first) : holds last := by
  induction chain with
  | nil state => exact start
  | cons head tail ih =>
      exact ih (fun element member => kept element (List.mem_cons_of_mem _ member))
        (kept _ List.mem_cons_self _ _ head start)

theorem append {left right : List β} {first next last : τ} (early : Chain pass left first next)
    (late : Chain pass right next last) : Chain pass (left ++ right) first last := by
  induction early with
  | nil state => exact late
  | cons head tail ih => exact Chain.cons head (ih late)

theorem split {left right : List β} {first last : τ}
    (chain : Chain pass (left ++ right) first last) :
    ∃ next, Chain pass left first next ∧ Chain pass right next last := by
  induction left generalizing first with
  | nil => exact ⟨first, Chain.nil first, chain⟩
  | cons element rest ih =>
      cases chain with
      | cons head tail =>
          obtain ⟨next, early, late⟩ := ih tail
          exact ⟨next, Chain.cons head early, late⟩

/-- The pass over one element of the list, with those before and after it. -/
theorem around {early late : List β} {element : β} {first last : τ}
    (chain : Chain pass (early ++ element :: late) first last) :
    ∃ before after, Chain pass early first before ∧ pass element before after ∧
      Chain pass late after last := by
  obtain ⟨before, earlier, rest⟩ := chain.split
  cases rest with
  | cons head tail => exact ⟨before, _, earlier, head, tail⟩

theorem map {α : Type} {change : α → β} {list : List α} {first last : τ}
    (chain : Chain (fun element => pass (change element)) list first last) :
    Chain pass (list.map change) first last := by
  induction chain with
  | nil state => exact Chain.nil state
  | cons head tail ih => exact Chain.cons head ih

theorem breaks {υ : Type} {broken : β → τ → υ → Prop} {left right : List β} {first next : τ}
    {last : υ} (early : Chain pass left first next) (late : Breaks pass broken right next last) :
    Breaks pass broken (left ++ right) first last := by
  induction early with
  | nil state => exact late
  | cons head tail ih => exact Breaks.later head (ih late)

end Chain

namespace Breaks

variable {β τ υ : Type} {pass : β → τ → τ → Prop} {broken : β → τ → υ → Prop}

/-- The pass that breaks the loop off starts where others before it have led. -/
theorem broken_after {list : List β} {first : τ} {last : υ}
    (breaks : Breaks pass broken list first last) (holds : τ → Prop)
    (kept : ∀ element ∈ list, ∀ before after, pass element before after →
      holds before → holds after)
    (start : holds first) : ∃ element ∈ list, ∃ before, holds before ∧ broken element before last := by
  induction breaks with
  | here head => exact ⟨_, List.mem_cons_self, _, start, head⟩
  | later head tail ih =>
      obtain ⟨element, member, before, held, cut⟩ :=
        ih (fun element member => kept element (List.mem_cons_of_mem _ member))
          (kept _ List.mem_cons_self _ _ head start)
      exact ⟨element, List.mem_cons_of_mem _ member, before, held, cut⟩

/-- The loop goes well up to the pass that breaks it off. -/
theorem cut {list : List β} {first : τ} {last : υ} (breaks : Breaks pass broken list first last) :
    ∃ early element late now, list = early ++ element :: late ∧ Chain pass early first now ∧
      broken element now last := by
  induction breaks with
  | here head => exact ⟨[], _, _, _, rfl, Chain.nil _, head⟩
  | later head tail ih =>
      obtain ⟨early, element, late, now, rfl, chain, cut⟩ := ih
      exact ⟨_ :: early, element, late, now, rfl, Chain.cons head chain, cut⟩

/-- Less may be said of what is left. -/
theorem weaken {φ : Type} {list : List β} {first : τ} {last : υ} {left : φ}
    {half : β → τ → φ → Prop} (breaks : Breaks pass broken list first last)
    (weaker : ∀ element now, broken element now last → half element now left) :
    Breaks pass half list first left := by
  induction breaks with
  | here head => exact Breaks.here (weaker _ _ head)
  | later head tail ih => exact Breaks.later head (ih weaker)

theorem before {left right : List β} {first : τ} {last : υ}
    (breaks : Breaks pass broken left first last) :
    Breaks pass broken (left ++ right) first last := by
  induction breaks with
  | here head => exact Breaks.here head
  | later head tail ih => exact Breaks.later head ih

theorem map {α : Type} {change : α → β} {list : List α} {first : τ} {last : υ}
    (breaks : Breaks (fun element => pass (change element))
      (fun element => broken (change element)) list first last) :
    Breaks pass broken (list.map change) first last := by
  induction breaks with
  | here head => exact Breaks.here head
  | later head tail ih => exact Breaks.later head ih

end Breaks

namespace Task

variable {ε β γ σ τ υ : Type} {rule : Rule σ}

/-- A loop that hands a value from pass to pass. Between two passes the value and the state are in
order, and what is seen of them is where the passes have led. -/
theorem meets_foldlM (monotone : rule.Monotone) {inOrder : γ → σ → Prop} (seen : γ → σ → τ)
    (left : ε → σ → υ) {pass : β → τ → τ → Prop} {broken : β → τ → υ → Prop}
    {body : γ → β → Task ε γ} {list : List β}
    (each : ∀ element ∈ list, ∀ value state, inOrder value state →
      (body value element).Meets rule
        (fun next after => inOrder next after ∧ pass element (seen value state) (seen next after))
        (fun error after => broken element (seen value state) (left error after)) state)
    {value : γ} {state : σ} (start : inOrder value state) :
    (list.foldlM body value).Meets rule
      (fun next after => inOrder next after ∧ Chain pass list (seen value state) (seen next after))
      (fun error after => Breaks pass broken list (seen value state) (left error after)) state := by
  induction list generalizing value state with
  | nil => exact ⟨start, Chain.nil _⟩
  | cons element rest ih =>
      rw [List.foldlM_cons, meets_bind]
      refine (each element List.mem_cons_self value state start).mono monotone ?_ ?_
      · intro next after passed
        have later := ih (fun element member => each element (List.mem_cons_of_mem _ member))
          passed.1
        refine later.mono monotone ?_ ?_
        · intro last final chained
          exact ⟨chained.1, Chain.cons passed.2 chained.2⟩
        · intro error final cut
          exact Breaks.later passed.2 cut
      · intro error after cut
        exact Breaks.here cut

/-- What every pass of a loop keeps, the loop keeps. -/
theorem keeps_forM (monotone : rule.Monotone) {inOrder : σ → Prop} {fails : ε → σ → Prop}
    {body : β → Task ε PUnit} {list : List β}
    (each : ∀ element ∈ list, ∀ state, inOrder state →
      (body element).Meets rule (fun _ after => inOrder after) fails state)
    {state : σ} (start : inOrder state) :
    (list.forM body).Meets rule (fun _ after => inOrder after) fails state := by
  induction list generalizing state with
  | nil => exact start
  | cons element rest ih =>
      rw [List.forM, meets_bind]
      refine (each element List.mem_cons_self state start).mono monotone ?_
        (fun _error _after failed => failed)
      intro _unit after kept
      exact ih (fun other member => each other (List.mem_cons_of_mem _ member)) kept

theorem keeps_mapM (monotone : rule.Monotone) {inOrder : σ → Prop} {fails : ε → σ → Prop}
    {body : β → Task ε γ} {list : List β}
    (each : ∀ element ∈ list, ∀ state, inOrder state →
      (body element).Meets rule (fun _ after => inOrder after) fails state)
    {state : σ} (start : inOrder state) :
    (list.mapM body).Meets rule (fun _ after => inOrder after) fails state := by
  induction list generalizing state with
  | nil => exact start
  | cons element rest ih =>
      rw [List.mapM_cons, meets_bind]
      refine (each element List.mem_cons_self state start).mono monotone ?_
        (fun _error _after failed => failed)
      intro _value after kept
      rw [meets_bind]
      exact (ih (fun other member => each other (List.mem_cons_of_mem _ member)) kept).mono monotone
        (fun _values _last still => still) (fun _error _last failed => failed)

/-- A loop that hands nothing on. -/
theorem meets_forM (monotone : rule.Monotone) {inOrder : σ → Prop} (seen : σ → τ)
    (left : ε → σ → υ) {pass : β → τ → τ → Prop} (broken : β → τ → υ → Prop)
    {body : β → Task ε PUnit} {list : List β}
    (each : ∀ element ∈ list, ∀ state, inOrder state →
      (body element).Meets rule
        (fun _ after => inOrder after ∧ pass element (seen state) (seen after))
        (fun error after => broken element (seen state) (left error after)) state)
    {state : σ} (start : inOrder state) :
    (list.forM body).Meets rule
      (fun _ after => inOrder after ∧ Chain pass list (seen state) (seen after))
      (fun error after => Breaks pass broken list (seen state) (left error after)) state := by
  induction list generalizing state with
  | nil => exact ⟨start, Chain.nil _⟩
  | cons element rest ih =>
      rw [List.forM, meets_bind]
      refine (each element List.mem_cons_self state start).mono monotone ?_ ?_
      · intro _unit after passed
        have later := ih (fun element member => each element (List.mem_cons_of_mem _ member))
          passed.1
        refine later.mono monotone ?_ ?_
        · intro _last final chained
          exact ⟨chained.1, Chain.cons passed.2 chained.2⟩
        · intro error final cut
          exact Breaks.later passed.2 cut
      · intro error after cut
        exact Breaks.here cut

end Task

end BundleStore
