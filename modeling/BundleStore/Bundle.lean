import BundleStore.Item

set_option autoImplicit false

/-! A bundle is the durable record of one node with all its properties. Binary values above a
threshold are kept apart as blobs; the bundle then holds their blob identifiers. The identity
properties follow from the header: they are computed on demand, and the table of computed states
is never written. -/

namespace BundleStore

inductive StoredValue where
  | inline (value : Value)
  | blob (id : String) (length : UInt64)
deriving DecidableEq

namespace StoredValue

def memorySize : StoredValue → Nat
  | .inline value => value.memorySize
  | .blob id _ => id.utf8ByteSize + 16

def blob? : StoredValue → Option String
  | .inline _ => none
  | .blob id _ => some id

end StoredValue

structure StoredProperty where
  id : PropertyId
  type : ValueType
  multiple : Bool
  modCount : UInt16
  values : List StoredValue
deriving DecidableEq

namespace StoredProperty

def blobs (property : StoredProperty) : List String := property.values.filterMap StoredValue.blob?

def memorySize (property : StoredProperty) : Nat :=
  200 + property.id.name.memorySize +
    property.values.foldr (fun value sum => value.memorySize + sum) 0

end StoredProperty

structure Bundle where
  id : NodeId
  parent : Option NodeId
  nodeType : Name
  mixins : SortedSet Name
  children : List Child
  properties : SortedMap Name StoredProperty
  /-- True until the bundle has been written to storage or read from it. -/
  isNew : Bool
  /-- Identity properties computed so far. -/
  computed : SortedMap Name Property
deriving DecidableEq

namespace Bundle

def ofNode (node : Node) : Bundle :=
  { id := node.id
    parent := node.parent
    nodeType := node.nodeType
    mixins := node.mixins
    children := node.children
    properties := SortedMap.empty
    isNew := true
    computed := SortedMap.empty }

/-- Takes over the header of the node. What was computed from the old header is forgotten. -/
def update (bundle : Bundle) (node : Node) : Bundle :=
  { bundle with
      parent := node.parent
      nodeType := node.nodeType
      mixins := node.mixins
      children := node.children
      computed := SortedMap.empty }

def markOld (bundle : Bundle) : Bundle := { bundle with isNew := false }

/-- Drops the entries for the node, and tells whether there was one. -/
def dropChildren (bundle : Bundle) (id : NodeId) : Bool × Bundle :=
  let children := bundle.children.filter (fun child => child.id ≠ id)
  (children.length != bundle.children.length, { bundle with children })

def isReferenceable (bundle : Bundle) : Bool := bundle.mixins.contains Name.referenceable

/-- Whether the node has the property, stored or by its header. -/
def hasProperty (bundle : Bundle) (name : Name) : Bool :=
  if bundle.properties.contains name then true
  else if name = Name.primaryType then true
  else if name = Name.mixinTypes then !bundle.mixins.isEmpty
  else if name = Name.uuid then bundle.isReferenceable
  else false

def blobs (bundle : Bundle) : List String := bundle.properties.values.flatMap StoredProperty.blobs

def identityNames : List Name := [Name.primaryType, Name.mixinTypes, Name.uuid]

/-- The names of the stored properties, with those that the header brings. -/
def propertyNames (bundle : Bundle) : SortedSet Name :=
  let names := SortedSet.add (SortedSet.ofElements bundle.properties.keys) Name.primaryType
  let names := if !bundle.mixins.isEmpty then SortedSet.add names Name.mixinTypes else names
  if bundle.isReferenceable then SortedSet.add names Name.uuid else names

def toNode (bundle : Bundle) : Node :=
  { id := bundle.id
    parent := bundle.parent
    nodeType := bundle.nodeType
    mixins := bundle.mixins
    children := bundle.children
    properties := bundle.propertyNames
    status := .existing }

/-- The state of an identity property, from the header alone. -/
def identityState? (bundle : Bundle) (name : Name) : Option Property :=
  let id : PropertyId := ⟨bundle.id, name⟩
  if name = Name.uuid then some (Property.single id (.string bundle.id.text))
  else if name = Name.primaryType then some (Property.single id (.name bundle.nodeType))
  else if name = Name.mixinTypes then
    some (Property.multi id .name ((SortedSet.elements bundle.mixins).map Value.name))
  else none

/-- The computed state is kept for later reads. -/
def computeProperty (bundle : Bundle) (name : Name) : Option (Property × Bundle) :=
  (bundle.identityState? name).map (fun state =>
    (state, { bundle with computed := bundle.computed.insert name state }))

/-- Bytes that the bundle is counted as holding in memory. -/
def memorySize (bundle : Bundle) : Nat :=
  520 + bundle.nodeType.memorySize +
    (SortedSet.elements bundle.mixins).foldr (fun mixin sum => mixin.memorySize + sum) 0 +
    bundle.children.foldr (fun child sum => child.name.memorySize + 64 + sum) 0 +
    bundle.properties.values.foldr (fun property sum => property.memorySize + sum) 0

end Bundle

end BundleStore
