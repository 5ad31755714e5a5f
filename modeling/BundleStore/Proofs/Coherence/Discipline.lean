import BundleStore.Proofs.Storage.Contents
import BundleStore.Proofs.Task.Meets

set_option autoImplicit false

/-! The order in which readers and writers have to take their actions for the cache to stay true.
A reader notes the write count before it loads a bundle, and hands in for the cache what it has
loaded under the count it has noted. A writer that has touched the record of a node owes the cache
the news before it does anything else with bundles. Whether a task keeps to this can be seen from
the task alone. -/

namespace BundleStore

/-- Where a task stands between storage and cache. -/
inductive Stage where
  | free
  | noted (id : NodeId) (generation : Nat)
  | loaded (id : NodeId) (generation : Nat) (found : Option Bundle)
  /-- The record of the node may have changed, and the cache does not know yet. -/
  | owing (id : NodeId)
  /-- Any record may have changed. -/
  | adrift

namespace Stage

/-- What a reader may do next. -/
def Permits (stage : Stage) : Action → Prop
  | .cache (.lookup _) => stage = .free
  | .cache (.generation _) => stage = .free
  | .storage (.loadBundle id) => ∃ generation, stage = .noted id generation
  | .cache (.fill id found generation) =>
      ∃ held, stage = .loaded id generation held ∧ found = held.map Bundle.markOld
  | .cache (.keepComputed _ before after) =>
      (before.Ready → after.Ready) ∧ after.record = before.record
  | .cache (.invalidate _) => True
  | .cache .clear => True
  | .storage (.loadReferences _) => True
  | .storage (.getBlob _) => True
  | .warn _ => True
  | _ => False

def after (stage : Stage) : (action : Action) → action.Result → Stage
  | .cache (.generation id), generation => .noted id generation
  | .storage (.loadBundle id), .ok found =>
      match stage with
      | .noted _ generation => .loaded id generation found
      | other => other
  | .cache (.fill _ _ _), _ => .free
  | .storage (.storeBundle bundle), _ => .owing bundle.id
  | .storage (.destroyBundle id), _ => .owing id
  | .storage (.checkConsistency _ _ true), .ok _ => .adrift
  | .cache (.refresh _), _ => .free
  | .cache (.putMissing _), _ => .free
  | .cache .clear, _ => .free
  | _, _ => stage

/-- The cache may be wrong about the node. -/
def Behind (stage : Stage) (id : NodeId) : Prop :=
  match stage with
  | .owing owed => id = owed
  | .adrift => True
  | _ => False

end Stage

/-- A writer's stage and what storage holds meanwhile. -/
structure Moment where
  stage : Stage
  contents : Contents

namespace Moment

/-- What a writer may do next. -/
def Permits (now : Moment) : Action → Prop
  | .storage (.storeBundle _) => now.stage = .free
  | .storage (.destroyBundle _) => now.stage = .free
  | .storage (.checkConsistency _ _ _) => now.stage = .free
  | .storage (.storeReferences _) => True
  | .storage (.destroyReferences _) => True
  | .storage (.createBlobId _ _) => True
  | .storage (.putBlob _ _) => True
  | .storage (.removeBlob _) => True
  | .cache (.refresh bundle) =>
      now.stage = .owing bundle.id ∧ bundle.Ready ∧
        now.contents.bundles bundle.id = some bundle.record
  | .cache (.putMissing id) => now.stage = .owing id ∧ now.contents.bundles id = none
  | action => now.stage.Permits action

end Moment

def Lookup.Tells : Lookup → Option Bundle → Prop
  | .unknown, _ => True
  | .missing, record => record = none
  | .present bundle, record => bundle.Ready ∧ record = some bundle.record

/-- What an action may answer, and do to what storage holds, while nobody else writes. -/
def Action.Does (faults : Faults) :
    (action : Action) → action.Result → Contents → Contents → Prop
  | .storage call, .ok value, before, after => call.Does value before after
  | .storage call, .error error, before, after =>
      faults call error before ∧ call.Fails before after
  | .cache (.lookup id), found, before, after => after = before ∧ found.Tells (before.bundles id)
  | .cache _, _, before, after => after = before
  | .warn _, _, before, after => after = before

/-- What may come of an action of the writer. -/
structure Moment.Leads (faults : Faults) (now : Moment) (action : Action) (result : action.Result)
    (next : Moment) : Prop where
  stage : next.stage = now.stage.after action result
  contents : action.Does faults result now.contents next.contents

/-- A reader answers for its own steps only, since anything may happen between them. -/
def reading : Rule Stage := fun action stated stage =>
  stage.Permits action ∧ ∀ result, stated result (stage.after action result)

def writing (faults : Faults) : Rule Moment := fun action stated now =>
  now.Permits action ∧ ∀ result next, now.Leads faults action result next → stated result next

theorem reading_monotone : reading.Monotone :=
  fun _action _stage _stated _needed implied met =>
    ⟨met.1, fun result => implied result _ (met.2 result)⟩

theorem writing_monotone {faults : Faults} : (writing faults).Monotone :=
  fun _action _now _stated _needed implied met =>
    ⟨met.1, fun result next leads => implied result next (met.2 result next leads)⟩

end BundleStore
