import BundleStore.ChangeLog
import BundleStore.Repository.Read

set_option autoImplicit false

/-! Writing a change log. Bundles of deleted nodes go first; all other changes are gathered in
staged copies of the bundles, which are written in the order of their nodes; reference lists come
last. When a step fails the cache is emptied, and what was written until then stays. -/

namespace BundleStore.Repository

/-- Bundles to be written, by node. -/
abbrev Staged := SortedMap NodeId Bundle

def deleteNode (node : Node) : Task RepositoryError Unit := do
  let bundle ← fetchNode node.id
  call (.destroyBundle bundle.id)
  bundle.releaseBlobs
  Task.cache (.putMissing node.id)

/-- The nodes that are gone. -/
def deleteNodes : List Node → SortedSet NodeId → Task RepositoryError (SortedSet NodeId)
  | [], gone => return gone
  | node :: rest, gone => do
      deleteNode node
      deleteNodes rest (SortedSet.add gone node.id)

def stageAdded (nodes : List Node) : Staged :=
  nodes.foldl (fun staged node => staged.insert node.id (Bundle.ofNode node)) SortedMap.empty

/-- The staged bundle, or else a copy of the stored one. -/
def stagedBundle (staged : Staged) (id : NodeId) : Task RepositoryError Bundle :=
  match staged.find? id with
  | some bundle => return bundle
  | none => fetchNode id

def updateNode (staged : Staged) (node : Node) : Task RepositoryError Staged := do
  let bundle ← stagedBundle staged node.id
  return staged.insert node.id (bundle.update node)

def putProperty (threshold : Nat) (staged : Staged) (state : Property) :
    Task RepositoryError Staged := do
  let bundle ← stagedBundle staged state.id.node
  let (result, bundle) ← bundle.addProperty state threshold
  (Task.ofExcept result).mapError RepositoryError.storage
  return staged.insert state.id.node bundle

def modifyProperty (threshold : Nat) (staged : Staged) (state : Property) :
    Task RepositoryError Staged :=
  if state.id.name.isIdentity then return staged else putProperty threshold staged state

/-- A change to a property is expected to come with its node. -/
def warnUnlessStaged (staged : Staged) (node : NodeId) (warning : Warning) :
    Task RepositoryError Unit :=
  if staged.contains node then return () else Task.warn warning

def dropProperty (gone : SortedSet NodeId) (staged : Staged) (state : Property) :
    Task RepositoryError Staged := do
  if gone.contains state.id.node then return staged
  else
    warnUnlessStaged staged state.id.node (.deletedWithoutOwner state.id)
    let bundle ← stagedBundle staged state.id.node
    let (_, bundle) ← bundle.removeProperty state.id.name
    return staged.insert state.id.node bundle

def addProperty (threshold : Nat) (staged : Staged) (state : Property) :
    Task RepositoryError Staged := do
  if state.id.name.isIdentity then return staged
  else
    warnUnlessStaged staged state.id.node (.addedWithoutOwner state.id)
    putProperty threshold staged state

def warnParent (gone : SortedSet NodeId) (staged : Staged) (node : Node) :
    Task RepositoryError Unit :=
  match node.parent with
  | none => return ()
  | some parent =>
      if gone.contains parent || staged.contains parent then return ()
      else Task.warn (.parentUntouched node.id parent)

/-- A node that is not cached stays so, but reads on their way must not bring back the old
bundle. -/
def writeBundle (bundle : Bundle) : Task RepositoryError Unit := do
  call (.storeBundle bundle)
  let _ ← Task.cache (.refresh bundle.markOld)
  return ()

def writeReferences (references : References) : Task RepositoryError Unit :=
  if references.isEmpty then call (.destroyReferences references.target)
  else call (.storeReferences references)

def stageChanges (threshold : Nat) (log : ChangeLog) (gone : SortedSet NodeId) :
    Task RepositoryError Staged := do
  let staged := stageAdded log.addedNodes
  let staged ← log.modifiedNodes.foldlM updateNode staged
  let staged ← log.modifiedProperties.foldlM (modifyProperty threshold) staged
  let staged ← log.deletedProperties.foldlM (dropProperty gone) staged
  log.addedProperties.foldlM (addProperty threshold) staged

def apply (threshold : Nat) (log : ChangeLog) : Task RepositoryError Unit := do
  let gone ← deleteNodes log.deletedNodes SortedMap.empty
  let staged ← stageChanges threshold log gone
  log.deletedNodes.forM (warnParent gone staged)
  staged.values.forM writeBundle
  log.references.forM writeReferences

def store (threshold : Nat) (log : ChangeLog) : Task RepositoryError Unit :=
  (apply threshold log).orElse (fun error => do
    Task.cache .clear
    Task.warn .storeFailed
    Task.fail error)

/-- The bundles that a log touches, each once, in the order of the log. -/
def touched (log : ChangeLog) : List NodeId := (log.items.map Item.bundleId).eraseDups

/-- The changes were made elsewhere: what is cached of them is forgotten, and nothing is
loaded. -/
def externalUpdate (log : ChangeLog) : Task RepositoryError Unit :=
  (touched log).forM (fun id => Task.cache (.invalidate id))

def evict (id : NodeId) : Task RepositoryError Unit := Task.cache (.invalidate id)

def close : Task RepositoryError Unit := Task.cache .clear

/-- After a repair the cache may hold bundles as they were before, so it is emptied. -/
def check (ids : List NodeId) (recursive repair : Bool) :
    Task RepositoryError (List Problem) := do
  let problems ← call (.checkConsistency ids recursive repair)
  problems.forM (fun problem => Task.warn (.inconsistent problem))
  if repair then Task.cache .clear
  return problems

end BundleStore.Repository
