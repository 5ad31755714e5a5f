import BundleStore.Item

set_option autoImplicit false

/-! The properties that refer to one target node. They are looked up by target and stored apart
from the nodes that own them. -/

namespace BundleStore

structure References where
  target : NodeId
  referrers : SortedSet PropertyId
deriving DecidableEq

namespace References

def none (target : NodeId) : References := ⟨target, SortedMap.empty⟩

def isEmpty (references : References) : Bool := references.referrers.isEmpty

def has (references : References) (referrer : PropertyId) : Bool :=
  references.referrers.contains referrer

def add (references : References) (referrer : PropertyId) : References :=
  { references with referrers := SortedSet.add references.referrers referrer }

def remove (references : References) (referrer : PropertyId) : References :=
  { references with referrers := references.referrers.erase referrer }

end References

end BundleStore
