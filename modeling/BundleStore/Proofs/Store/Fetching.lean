import BundleStore.Proofs.Coherence.Discipline
import BundleStore.Repository.Read

set_option autoImplicit false

/-! What single actions come to for a writer, and what it gets when it fetches a bundle. -/

namespace BundleStore

section

variable {ε α : Type} {faults : Faults} {now : Moment}

theorem writing_call {call : StorageCall} {ends : call.Result → Moment → Prop}
    {fails : StorageError → Moment → Prop} (permits : now.Permits (.storage call))
    (answered : ∀ value after, call.Does value now.contents after →
      ends value ⟨now.stage.after (.storage call) (.ok value), after⟩)
    (failed : ∀ error after, faults call error now.contents → call.Fails now.contents after →
      fails error ⟨now.stage.after (.storage call) (.error error), after⟩) :
    (Task.call call).Meets (writing faults) ends fails now := by
  refine Task.meets_call ⟨permits, fun result next leads => ?_⟩
  obtain ⟨stage, contents⟩ := next
  obtain ⟨rfl, does⟩ := leads
  cases result with
  | ok value => exact answered value contents does
  | error error => exact failed error contents does.1 does.2

theorem writing_attempt {call : StorageCall}
    {ends : Except StorageError call.Result → Moment → Prop} {fails : ε → Moment → Prop}
    (permits : now.Permits (.storage call))
    (answered : ∀ value after, call.Does value now.contents after →
      ends (.ok value) ⟨now.stage.after (.storage call) (.ok value), after⟩)
    (failed : ∀ error after, faults call error now.contents → call.Fails now.contents after →
      ends (.error error) ⟨now.stage.after (.storage call) (.error error), after⟩) :
    (Task.attempt call : Task ε _).Meets (writing faults) ends fails now := by
  constructor
  · exact permits
  · intro result next leads
    obtain ⟨stage, contents⟩ := next
    obtain ⟨rfl, does⟩ := leads
    cases result with
    | ok value => exact answered value contents does
    | error error => exact failed error contents does.1 does.2

theorem writing_warn {warning : Warning} {ends : Unit → Moment → Prop} {fails : ε → Moment → Prop}
    (ended : ends () now) :
    (Task.warn warning : Task ε Unit).Meets (writing faults) ends fails now := by
  constructor
  · exact trivial
  · intro result next leads
    obtain ⟨stage, contents⟩ := next
    obtain ⟨rfl, rfl⟩ := leads
    exact ended

theorem writing_cache {step : CacheStep} {ends : step.Result → Moment → Prop}
    {fails : ε → Moment → Prop} (permits : now.Permits (.cache step))
    (answered : ∀ result after, (Action.cache step).Does faults result now.contents after →
      ends result ⟨now.stage.after (.cache step) result, after⟩) :
    (Task.cache step : Task ε _).Meets (writing faults) ends fails now := by
  constructor
  · exact permits
  · intro result next leads
    obtain ⟨stage, contents⟩ := next
    obtain ⟨rfl, does⟩ := leads
    exact answered result contents does

/-- A loop whose passes leave the writer at the stage they find it at. -/
theorem writing_forM {β : Type} {stage : Stage} {pass : β → Contents → Contents → Prop}
    (broken : β → Contents → ε × Contents → Prop) {body : β → Task ε PUnit} {list : List β}
    (each : ∀ element ∈ list, ∀ contents,
      (body element).Meets (writing faults)
        (fun _ next => next.stage = stage ∧ pass element contents next.contents)
        (fun error next => broken element contents (error, next.contents)) ⟨stage, contents⟩)
    (contents : Contents) :
    (list.forM body).Meets (writing faults)
      (fun _ next => next.stage = stage ∧ Chain pass list contents next.contents)
      (fun error next => Breaks pass broken list contents (error, next.contents))
      ⟨stage, contents⟩ := by
  have passes : ∀ element ∈ list, ∀ now : Moment, now.stage = stage →
      (body element).Meets (writing faults)
        (fun _ next => next.stage = stage ∧ pass element now.contents next.contents)
        (fun error next => broken element now.contents (error, next.contents)) now := by
    intro element member reached same
    obtain ⟨_stage, held⟩ := reached
    subst same
    exact each element member held
  have begun : (Moment.mk stage contents).stage = stage := rfl
  exact Task.meets_forM writing_monotone Moment.contents
    (fun error next => (error, next.contents)) broken passes begun

end

variable {faults : Faults} {contents : Contents}

/-- What is fetched is the record, with what has been computed on it. -/
structure Fetched (contents : Contents) (id : NodeId) (found : Option Bundle) : Prop where
  record : found.map Bundle.record = contents.bundles id
  ready : ∀ bundle, found = some bundle → bundle.Ready

theorem fetched_loaded (contents : Contents) (id : NodeId) :
    Fetched contents id ((contents.bundles id).map Bundle.markOld) := by
  cases held : contents.bundles id with
  | none => exact ⟨held.symm, fun bundle impossible => by cases impossible⟩
  | some bundle =>
      have recorded := contents.recorded held
      constructor
      · exact held.symm ▸ congrArg some recorded
      · intro marked same
        rw [← Option.some.inj same, Bundle.markOld_of_record recorded]
        exact Bundle.ready_of_record recorded

theorem fetchBundle_writing (id : NodeId) :
    (fetchBundle id).Meets (writing faults)
      (fun found next => next = ⟨.free, contents⟩ ∧ Fetched contents id found)
      (fun error next => next.contents = contents ∧ faults (.loadBundle id) error contents)
      ⟨.free, contents⟩ := by
  rw [fetchBundle, Task.meets_bind]
  refine writing_cache rfl (fun found after does => ?_)
  obtain ⟨rfl, tells⟩ := does
  cases found with
  | present bundle =>
      refine ⟨rfl, ⟨tells.2.symm, fun other same => ?_⟩⟩
      rw [← Option.some.inj same]
      exact tells.1
  | missing => exact ⟨rfl, ⟨tells.symm, fun bundle impossible => by cases impossible⟩⟩
  | unknown =>
      rw [Task.meets_bind]
      refine writing_cache rfl (fun generation after does => ?_)
      obtain rfl := does
      rw [Task.meets_bind]
      refine writing_call ⟨generation, rfl⟩ (fun found after does => ?_)
        (fun error after fault fails => ?_)
      · obtain ⟨rfl, rfl⟩ := does
        rw [Task.meets_bind]
        refine writing_cache ⟨_, rfl, rfl⟩ (fun kept after does => ?_)
        obtain rfl := does
        exact ⟨rfl, fetched_loaded _ id⟩
      · constructor
        · rcases fails with same | ⟨_unchecked, found, does⟩
          · exact same
          · exact does.1
        · exact fault

/-- The calls by which a store comes to what it is going to write. -/
def StorageCall.drafts : StorageCall → Bool
  | .loadBundle _ | .destroyBundle _ | .createBlobId _ _ | .putBlob _ _ => true
  | _ => false

/-- One of these calls may fail so. -/
def Faults.InDraft (faults : Faults) (cause : StorageError) : Prop :=
  ∃ call contents, StorageCall.drafts call = true ∧ faults call cause contents

/-- What is said when the bundle of the node cannot be had, or not be changed: there is none, or a
call has failed. -/
inductive Withheld (faults : Faults) (id : NodeId) : Option Bundle → RepositoryError → Prop where
  | absent : Withheld faults id none (.notFound (.node id))
  | fault {found : Option Bundle} {cause : StorageError} (struck : faults.InDraft cause) :
      Withheld faults id found (.storage cause)

namespace Repository

theorem fetch_writing (id : NodeId) :
    (fetch id).Meets (writing faults)
      (fun found next => next = ⟨.free, contents⟩ ∧ Fetched contents id found)
      (fun error next => next.contents = contents ∧
        ∃ cause, error = .storage cause ∧ faults (.loadBundle id) cause contents)
      ⟨.free, contents⟩ := by
  rw [fetch, Task.meets_mapError]
  refine (fetchBundle_writing id).mono writing_monotone (fun found next met => met) ?_
  intro error next failed
  exact ⟨failed.1, error, rfl, failed.2⟩

theorem fetchNode_writing (id : NodeId) :
    (fetchNode id).Meets (writing faults)
      (fun bundle next => next = ⟨.free, contents⟩ ∧ bundle.Ready ∧
        contents.bundles id = some bundle.record)
      (fun error next => next.contents = contents ∧
        Withheld faults id (contents.bundles id) error)
      ⟨.free, contents⟩ := by
  rw [fetchNode, Task.meets_bind]
  refine (fetch_writing id).mono writing_monotone ?_ ?_
  · intro found next met
    obtain ⟨rfl, fetched⟩ := met
    cases found with
    | none =>
        refine ⟨rfl, ?_⟩
        rw [← fetched.record]
        exact .absent
    | some bundle => exact ⟨rfl, fetched.ready bundle rfl, fetched.record.symm⟩
  · intro error next failed
    obtain ⟨same, cause, rfl, fault⟩ := failed
    exact ⟨same, .fault ⟨_, _, rfl, fault⟩⟩

end Repository

end BundleStore
