import BundleStore.Name
import BundleStore.NodeId

set_option autoImplicit false

/-! Identifiers of the items of a repository. A property is named by the node that owns it and a
qualified name; nodes come before properties in the order of items. -/

namespace BundleStore

structure PropertyId where
  node : NodeId
  name : Name
deriving DecidableEq, Inhabited

namespace PropertyId

instance : Ord PropertyId := ⟨compareLex (compareOn node) (compareOn name)⟩

instance : Std.TransOrd PropertyId :=
  inferInstanceAs (Std.TransCmp (compareLex (compareOn node) (compareOn name)))

instance : Std.LawfulEqOrd PropertyId where
  eq_of_compare {left right} same := by
    have both : compare left.node right.node = .eq ∧ compare left.name right.name = .eq :=
      Ordering.then_eq_eq.mp same
    cases left
    cases right
    simp only [Std.LawfulEqCmp.compare_eq_iff_eq] at both
    rw [mk.injEq]
    exact both

def chars (id : PropertyId) : List Char := id.node.chars ++ '/' :: id.name.chars

def text (id : PropertyId) : String := String.ofList id.chars

end PropertyId

inductive IdentifierError where
  | nodeId (text : String)
  | name (text : String)
  | propertyId (text : String)
deriving DecidableEq

def NodeId.read (text : String) : Except IdentifierError NodeId :=
  match NodeId.ofText? text with
  | some id => .ok id
  | none => .error (.nodeId text)

def Name.read (text : String) : Except IdentifierError Name :=
  match Name.ofText? text with
  | some name => .ok name
  | none => .error (.name text)

/-- The first slash ends the node's part. -/
def PropertyId.read (text : String) : Except IdentifierError PropertyId :=
  match text.toList.span (· ≠ '/') with
  | (_, []) => .error (.propertyId text)
  | (node, _ :: name) => do
      let node ← NodeId.read (String.ofList node)
      let name ← Name.read (String.ofList name)
      return ⟨node, name⟩

inductive ItemId where
  | node (id : NodeId)
  | property (id : PropertyId)
deriving DecidableEq

namespace ItemId

def text : ItemId → String
  | .node id => id.text
  | .property id => id.text

def isNode : ItemId → Bool
  | .node _ => true
  | .property _ => false

/-- The node whose bundle holds the item. -/
def bundleId : ItemId → NodeId
  | .node id => id
  | .property id => id.node

def kindRank : ItemId → Nat
  | .node _ => 0
  | .property _ => 1

def propertyName : ItemId → Name
  | .node _ => default
  | .property id => id.name

instance : Ord ItemId :=
  ⟨compareLex (compareOn kindRank) (compareLex (compareOn bundleId) (compareOn propertyName))⟩

instance : Std.TransOrd ItemId :=
  inferInstanceAs (Std.TransCmp
    (compareLex (compareOn kindRank) (compareLex (compareOn bundleId) (compareOn propertyName))))

end ItemId

end BundleStore
