import BundleStore.Bundle
import BundleStore.Report

set_option autoImplicit false

/-! Checking stored bundles: every child entry should lead to a stored bundle. The nodes to visit
form a stack; each is visited once. The entries of a bundle are gone through as they were loaded,
while a repairing check drops those that lead nowhere from a copy, one after the other. How bundles
are read, what else is looked at and when a check ends early is up to the storage. -/

namespace BundleStore

structure Visit where
  pending : List NodeId
  seen : SortedSet NodeId
  problems : List Problem

/-- What has come of the entries of one bundle so far. -/
structure Pass where
  repaired : Bundle
  /-- Whether the copy differs from the bundle as it was loaded. -/
  dirty : Bool
  pending : List NodeId
  problems : List Problem

namespace Pass

def entry (stored : NodeId → Bool) (recursive mend : Bool) (id : NodeId) (pass : Pass)
    (child : Child) : Pass :=
  if stored child.id then
    if recursive then { pass with pending := child.id :: pass.pending } else pass
  else
    let pass := { pass with problems := pass.problems ++ [.child id child.name child.id] }
    if mend then
      let (dropped, repaired) := pass.repaired.dropChildren child.id
      { pass with repaired, dirty := pass.dirty || dropped }
    else pass

def entries (stored : NodeId → Bool) (recursive mend : Bool) (id : NodeId) (bundle : Bundle)
    (pending : List NodeId) (problems : List Problem) : Pass :=
  bundle.children.foldl (entry stored recursive mend id) ⟨bundle, false, pending, problems⟩

end Pass

end BundleStore
