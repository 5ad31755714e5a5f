import BundleStore.Bundle
import BundleStore.Record.Codec
import BundleStore.References

set_option autoImplicit false

/-! The layout of each kind of record: the fields in order, sets and maps as sequences in their
own order. A set or map is read in any order, and of a repeated key the last entry stays. -/

namespace BundleStore.Record

open Codec

/-- A node identifier carries its length like any other byte string; no other length is read. -/
def nodeId : Codec NodeId := bytes.refine NodeId.bytes NodeId.ofBytes?

def name : Codec Name :=
  (text.pair text).refine (fun name => (name.namespaceUri, name.localName))
    (fun (uri, localName) => some ⟨uri, localName⟩)

def propertyId : Codec PropertyId :=
  (nodeId.pair name).refine (fun id => (id.node, id.name)) (fun (node, name) => some ⟨node, name⟩)

def set {κ : Type} [Ord κ] [Std.TransOrd κ] (key : Codec κ) : Codec (SortedSet κ) :=
  key.list.refine SortedSet.elements (fun elements => some (SortedSet.ofElements elements))

def map {κ α : Type} [Ord κ] [Std.TransOrd κ] (key : Codec κ) (value : Codec α) :
    Codec (SortedMap κ α) :=
  (key.pair value).list.refine SortedMap.entries (fun entries => some (SortedMap.ofList entries))

def valueType : Codec ValueType := choice ValueType.all

def status : Codec Status := choice Status.all

/-- The number of the type, then the payload. -/
def value : Codec Value where
  write value := valueType.write value.type ++ match value with
    | .string content => text.write content
    | .binary content => bytes.write content
    | .long number => signed64.write number
    | .double bits => word64.write bits
    | .date milliseconds => signed64.write milliseconds
    | .boolean truth => boolean.write truth
    | .name qualified => name.write qualified
    | .path content => text.write content
    | .reference target => nodeId.write target
  read input := do
    let (type, rest) ← valueType.read input
    match type with
    | .string => (text.read rest).map (fun (content, rest) => (.string content, rest))
    | .binary => (bytes.read rest).map (fun (content, rest) => (.binary content, rest))
    | .long => (signed64.read rest).map (fun (number, rest) => (.long number, rest))
    | .double => (word64.read rest).map (fun (bits, rest) => (.double bits, rest))
    | .date => (signed64.read rest).map (fun (number, rest) => (.date number, rest))
    | .boolean => (boolean.read rest).map (fun (truth, rest) => (.boolean truth, rest))
    | .name => (name.read rest).map (fun (qualified, rest) => (.name qualified, rest))
    | .path => (text.read rest).map (fun (content, rest) => (.path content, rest))
    | .reference => (nodeId.read rest).map (fun (target, rest) => (.reference target, rest))

def storedValue : Codec StoredValue where
  write
    | .inline content => (number 4).write 0 ++ value.write content
    | .blob id length => (number 4).write 1 ++ (text.pair word64).write (id, length)
  read input := do
    let (kind, rest) ← (number 4).read input
    match kind with
    | 0 => (value.read rest).map (fun (content, rest) => (.inline content, rest))
    | 1 => ((text.pair word64).read rest).map (fun ((id, length), rest) => (.blob id length, rest))
    | _ => none

def storedProperty : Codec StoredProperty :=
  (propertyId.pair (valueType.pair (boolean.pair (word16.pair storedValue.list)))).refine
    (fun property =>
      (property.id, property.type, property.multiple, property.modCount, property.values))
    (fun (id, type, multiple, modCount, values) => some ⟨id, type, multiple, modCount, values⟩)

def child : Codec Child :=
  (name.pair (nodeId.pair word32)).refine (fun child => (child.name, child.id, child.index))
    (fun (name, id, index) => some ⟨name, id, index⟩)

/-- What is read is in step with storage, and nothing is computed yet. -/
def bundle : Codec Bundle :=
  (nodeId.pair (nodeId.optional.pair (name.pair ((set name).pair (child.list.pair
      (map name storedProperty)))))).refine
    (fun bundle => (bundle.id, bundle.parent, bundle.nodeType, bundle.mixins, bundle.children,
      bundle.properties))
    (fun (id, parent, nodeType, mixins, children, properties) =>
      some ⟨id, parent, nodeType, mixins, children, properties, false, SortedMap.empty⟩)

def references : Codec References :=
  (nodeId.pair (set propertyId)).refine
    (fun references => (references.target, references.referrers))
    (fun (target, referrers) => some ⟨target, referrers⟩)

def node : Codec Node :=
  (nodeId.pair (nodeId.optional.pair (name.pair ((set name).pair (child.list.pair
      ((set name).pair status)))))).refine
    (fun node => (node.id, node.parent, node.nodeType, node.mixins, node.children,
      node.properties, node.status))
    (fun (id, parent, nodeType, mixins, children, properties, status) =>
      some ⟨id, parent, nodeType, mixins, children, properties, status⟩)

def property : Codec Property :=
  (propertyId.pair (valueType.pair (boolean.pair (value.list.pair (status.pair word16))))).refine
    (fun property => (property.id, property.type, property.multiple, property.values,
      property.status, property.modCount))
    (fun (id, type, multiple, values, status, modCount) =>
      some ⟨id, type, multiple, values, status, modCount⟩)

def item : Codec Item where
  write
    | .node state => (number 4).write 0 ++ node.write state
    | .property state => (number 4).write 1 ++ property.write state
  read input := do
    let (kind, rest) ← (number 4).read input
    match kind with
    | 0 => (node.read rest).map (fun (state, rest) => (.node state, rest))
    | 1 => (property.read rest).map (fun (state, rest) => (.property state, rest))
    | _ => none

def itemId : Codec ItemId where
  write
    | .node id => (number 4).write 0 ++ nodeId.write id
    | .property id => (number 4).write 1 ++ propertyId.write id
  read input := do
    let (kind, rest) ← (number 4).read input
    match kind with
    | 0 => (nodeId.read rest).map (fun (id, rest) => (.node id, rest))
    | 1 => (propertyId.read rest).map (fun (id, rest) => (.property id, rest))
    | _ => none

end BundleStore.Record
