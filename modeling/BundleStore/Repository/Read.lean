import BundleStore.Cache.Bundles
import BundleStore.Task.Bundle

set_option autoImplicit false

/-! Reading items. Bundles come through the cache, blobs and reference lists straight from
storage. -/

namespace BundleStore.Repository

def fetch (id : NodeId) : Task RepositoryError (Option Bundle) :=
  (fetchBundle id).mapError RepositoryError.storage

def call (call : StorageCall) : Task RepositoryError call.Result :=
  (Task.call call).mapError RepositoryError.storage

def required {α : Type} (item : ItemId) : Option α → Task RepositoryError α
  | some value => .done value
  | none => .fail (.notFound item)

def fetchNode (id : NodeId) : Task RepositoryError Bundle := do
  required (.node id) (← fetch id)

def loadNode (id : NodeId) : Task RepositoryError Node := do
  return (← fetchNode id).toNode

def existsNode (id : NodeId) : Task RepositoryError Bool := do
  return (← fetch id).isSome

/-- An identity property is computed from the header, and the state is kept with the bundle. -/
def loadProperty (id : PropertyId) : Task RepositoryError Property := do
  let bundle ← required (.property id) (← fetch id.node)
  match ← (bundle.property? id.name).mapError RepositoryError.storage with
  | some state => return state
  | none =>
      let (state, computed) ← required (.property id) (bundle.computeProperty id.name)
      Task.cache (.keepComputed id.node bundle computed)
      return state

def existsProperty (id : PropertyId) : Task RepositoryError Bool := do
  return (← fetch id.node).any (·.hasProperty id.name)

def loadReferences (target : NodeId) : Task RepositoryError References := do
  required (.node target) (← call (.loadReferences target))

def existsReferences (target : NodeId) : Task RepositoryError Bool := do
  return (← call (.loadReferences target)).isSome

/-- A node that is not stored yet. -/
def newNode (id : NodeId) : Node := Node.fresh id Name.unstructured none

end BundleStore.Repository
