import BundleStore.SortedMap
import BundleStore.Value

set_option autoImplicit false

/-! Nodes and properties as a session hands them in and gets them back. A child entry carries its
rank among the children of the same name, counted from one. -/

namespace BundleStore

inductive Status where
  | new
  | existing
  | existingModified
  | existingRemoved
deriving DecidableEq, Inhabited

def Status.all : List Status := [.new, .existing, .existingModified, .existingRemoved]

def Status.text : Status → String
  | .new => "New"
  | .existing => "Existing"
  | .existingModified => "ExistingModified"
  | .existingRemoved => "ExistingRemoved"

structure Child where
  name : Name
  id : NodeId
  index : UInt32
deriving DecidableEq, Inhabited

structure Node where
  id : NodeId
  parent : Option NodeId
  nodeType : Name
  mixins : SortedSet Name
  children : List Child
  properties : SortedSet Name
  status : Status
deriving DecidableEq

namespace Node

def fresh (id : NodeId) (nodeType : Name) (parent : Option NodeId) : Node :=
  { id, parent, nodeType
    mixins := SortedMap.empty
    children := []
    properties := SortedMap.empty
    status := .new }

/-- The rank that one more child of this name gets. -/
def nextIndex (node : Node) (name : Name) : UInt32 :=
  UInt32.ofNat (node.children.countP (·.name = name)) + 1

def addChild (node : Node) (name : Name) (id : NodeId) : Node :=
  { node with children := node.children ++ [⟨name, id, node.nextIndex name⟩] }

def lowerRank (name : Name) (child : Child) : Child :=
  if child.name = name then { child with index := child.index - 1 } else child

/-- The first entry for the id goes, and later entries of its name move up by one. -/
def removeChild (id : NodeId) : List Child → Option (Child × List Child)
  | [] => none
  | child :: rest =>
      if child.id = id then some (child, rest.map (lowerRank child.name))
      else (removeChild id rest).map (fun (removed, kept) => (removed, child :: kept))

def child? (node : Node) (name : Name) (index : UInt32) : Option Child :=
  node.children.find? (fun child => child.name = name ∧ child.index = index)

end Node

structure Property where
  id : PropertyId
  type : ValueType
  multiple : Bool
  values : List Value
  status : Status
  modCount : UInt16
deriving DecidableEq

namespace Property

def fresh (id : PropertyId) : Property := ⟨id, .string, false, [], .new, 0⟩

/-- The value decides the type. -/
def single (id : PropertyId) (value : Value) : Property :=
  { fresh id with type := value.type, values := [value] }

def multi (id : PropertyId) (type : ValueType) (values : List Value) : Property :=
  { fresh id with type, multiple := true, values }

end Property

inductive Item where
  | node (state : Node)
  | property (state : Property)
deriving DecidableEq

namespace Item

def id : Item → ItemId
  | .node state => .node state.id
  | .property state => .property state.id

def isNode : Item → Bool
  | .node _ => true
  | .property _ => false

/-- The parent of a node, the owner of a property. -/
def parent : Item → Option NodeId
  | .node state => state.parent
  | .property state => some state.id.node

def bundleId (item : Item) : NodeId := item.id.bundleId

def status : Item → Status
  | .node state => state.status
  | .property state => state.status

def node? : Item → Option Node
  | .node state => some state
  | .property _ => none

def property? : Item → Option Property
  | .node _ => none
  | .property state => some state

end Item

end BundleStore
