import BundleStore.References

set_option autoImplicit false

/-! The changes of one session, handed over as a batch. -/

namespace BundleStore

structure ChangeLog where
  added : List Item
  modified : List Item
  deleted : List Item
  references : List References
deriving DecidableEq

namespace ChangeLog

def empty : ChangeLog := ⟨[], [], [], []⟩

def isEmpty (log : ChangeLog) : Bool :=
  log.added.isEmpty && log.modified.isEmpty && log.deleted.isEmpty && log.references.isEmpty

def items (log : ChangeLog) : List Item := log.added ++ log.modified ++ log.deleted

def addedNodes (log : ChangeLog) : List Node := log.added.filterMap Item.node?
def addedProperties (log : ChangeLog) : List Property := log.added.filterMap Item.property?
def modifiedNodes (log : ChangeLog) : List Node := log.modified.filterMap Item.node?
def modifiedProperties (log : ChangeLog) : List Property := log.modified.filterMap Item.property?
def deletedNodes (log : ChangeLog) : List Node := log.deleted.filterMap Item.node?
def deletedProperties (log : ChangeLog) : List Property := log.deleted.filterMap Item.property?

end ChangeLog

end BundleStore
