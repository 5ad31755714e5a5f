import BundleStore.ChangeLog
import BundleStore.Proofs.Storage.Contents
import BundleStore.Proofs.Task.Meets

set_option autoImplicit false

/-! What storing a change log does to what storage holds, pass by pass, when it goes well and when
it is broken off. The cache plays no part. Staged bundles are seen as the records they will be
written as; blobs are written and released while the bundles are only staged. -/

namespace BundleStore

/-! ### Blobs -/

namespace Contents

/-- The blob identifier was given to a place of the property. -/
def SlotOf (contents : Contents) (property : PropertyId) (blob : String) : Prop :=
  ∃ place, contents.slots property place = some blob

/-- Only blobs within reach may differ; more blob identifiers may have been given. -/
structure Touched (reach : String → Prop) (before after : Contents) : Prop where
  bundles : after.bundles = before.bundles
  references : after.references = before.references
  blobs : ∀ {blob}, ¬ reach blob → after.blobs blob = before.blobs blob
  slots : ∀ {property place blob}, before.slots property place = some blob →
    after.slots property place = some blob

theorem Touched.refl (reach : String → Prop) (contents : Contents) :
    Touched reach contents contents :=
  ⟨rfl, rfl, fun _ => rfl, fun given => given⟩

theorem Touched.trans {reach : String → Prop} {first second third : Contents}
    (early : Touched reach first second) (late : Touched reach second third) :
    Touched reach first third :=
  ⟨late.bundles.trans early.bundles, late.references.trans early.references,
    fun out => (late.blobs out).trans (early.blobs out), fun given => late.slots (early.slots given)⟩

theorem Touched.wider {small large : String → Prop} {before after : Contents}
    (touched : Touched small before after) (wider : ∀ blob, small blob → large blob) :
    Touched large before after :=
  ⟨touched.bundles, touched.references, fun out => touched.blobs (fun near => out (wider _ near)),
    touched.slots⟩

theorem Named.touched {before after : Contents} (named : before.Named after)
    (reach : String → Prop) : Touched reach before after :=
  ⟨named.bundles, named.references, fun _ => by rw [named.blobs], named.slots⟩

theorem withBlob_touched (contents : Contents) (blob : String) (bytes : Option (List UInt8)) :
    Touched (fun other => other = blob) contents (contents.withBlob blob bytes) :=
  ⟨rfl, rfl, fun differs => Function.update_of_ne differs .., fun given => given⟩

end Contents

/-- Blobs can always be released. -/
def Faults.Release (faults : Faults) : Prop :=
  ∀ blob error contents, ¬ faults (.removeBlob blob) error contents

/-- The blobs are released. One that could not be removed is left as it was. -/
structure Released (faults : Faults) (old : List String) (before after : Contents) : Prop
    extends Contents.Touched (fun blob => blob ∈ old) before after where
  fewer : ∀ blob, after.blobs blob = none ∨ after.blobs blob = before.blobs blob
  gone : faults.Release → ∀ blob ∈ old, after.blobs blob = none

namespace StoredValue

/-- The stored value stands for the value at this place of the property. -/
def Keeps (contents : Contents) (threshold : Nat) (property : PropertyId) (place : Nat)
    (value : Value) : StoredValue → Prop
  | .inline kept => kept = value ∧ ∀ bytes, value = .binary bytes → bytes.length ≤ threshold
  | .blob held length => ∃ bytes, value = .binary bytes ∧ threshold < bytes.length ∧
      length = UInt64.ofNat bytes.length ∧ contents.slots property place = some held ∧
      contents.blobs held = some bytes

/-- The same of a list of values, the first one at the given place. -/
def KeepAll (contents : Contents) (threshold : Nat) (property : PropertyId) :
    Nat → List Value → List StoredValue → Prop
  | _, [], [] => True
  | place, value :: values, stored :: rest =>
      stored.Keeps contents threshold property place value ∧
        KeepAll contents threshold property (place + 1) values rest
  | _, _, _ => False

end StoredValue

/-- The stored property stands for the property. -/
structure StoredProperty.Keeps (contents : Contents) (threshold : Nat) (state : Property)
    (stored : StoredProperty) : Prop where
  id : stored.id = state.id
  type : stored.type = state.type
  multiple : stored.multiple = state.multiple
  modCount : stored.modCount = state.modCount
  values : StoredValue.KeepAll contents threshold state.id 0 state.values stored.values

/-! ### Staged bundles -/

namespace Bundle

def blobsOf (bundle : Bundle) (name : Name) : List String :=
  match bundle.properties.find? name with
  | some stored => stored.blobs
  | none => []

def withProperty (bundle : Bundle) (name : Name) (stored : StoredProperty) : Bundle :=
  { bundle with properties := (bundle.properties.erase name).insert name stored }

def withoutProperty (bundle : Bundle) (name : Name) : Bundle :=
  { bundle with properties := bundle.properties.erase name }

end Bundle

/-- What storage holds, and the records that are to be written. -/
structure Draft where
  staged : NodeId → Option Bundle
  contents : Contents

namespace Draft

/-- The record as it will be. -/
def bundle? (draft : Draft) (id : NodeId) : Option Bundle :=
  (draft.staged id).or (draft.contents.bundles id)

def stage (draft : Draft) (id : NodeId) (bundle : Bundle) : NodeId → Option Bundle :=
  Function.update draft.staged id (some bundle)

end Draft

/-- A change to a bundle that is staged. -/
inductive Change where
  | update (node : Node)
  | put (state : Property)
  | drop (state : Property)

namespace Change

/-- The old values of the property go, and the new ones are stored. -/
def Puts (faults : Faults) (threshold : Nat) (state : Property) (before after : Draft) : Prop :=
  ∃ bundle released stored, before.bundle? state.id.node = some bundle ∧
    Released faults (bundle.blobsOf state.id.name) before.contents released ∧
    Contents.Touched (fun blob => blob ∈ stored.blobs) released after.contents ∧
    stored.Keeps after.contents threshold state ∧
    after.staged = before.stage state.id.node (bundle.withProperty state.id.name stored)

def Drops (faults : Faults) (state : Property) (before after : Draft) : Prop :=
  ∃ bundle, before.bundle? state.id.node = some bundle ∧
    Released faults (bundle.blobsOf state.id.name) before.contents after.contents ∧
    after.staged = before.stage state.id.node (bundle.withoutProperty state.id.name)

/-- What a change comes to. Identity properties are passed over, and so is what is dropped from
nodes that are gone. -/
def Makes (faults : Faults) (threshold : Nat) (gone : NodeId → Prop) :
    Change → Draft → Draft → Prop
  | .update node, before, after => ∃ bundle, before.bundle? node.id = some bundle ∧
      after = ⟨before.stage node.id (bundle.update node), before.contents⟩
  | .put state, before, after =>
      (state.id.name.isIdentity = true ∧ after = before) ∨
        (state.id.name.isIdentity = false ∧ Puts faults threshold state before after)
  | .drop state, before, after =>
      (gone state.id.node ∧ after = before) ∨
        (¬ gone state.id.node ∧ Drops faults state before after)

/-- What a change leaves behind that is broken off. -/
def Spoils (faults : Faults) : Change → Draft → Contents → Prop
  | .put state, before, after => after = before.contents ∨
      state.id.name.isIdentity = false ∧
      ∃ bundle released, before.bundle? state.id.node = some bundle ∧
        Released faults (bundle.blobsOf state.id.name) before.contents released ∧
        Contents.Touched (after.SlotOf state.id) released after
  | _, before, after => after = before.contents

end Change

/-! ### The passes over storage -/

namespace Contents

/-- The node's record goes, then its blobs. -/
def Deletes (faults : Faults) (node : Node) (before after : Contents) : Prop :=
  ∃ bundle, before.bundles node.id = some bundle ∧
    Released faults bundle.blobs (before.without node.id) after

def DeletesHalf (node : Node) (before after : Contents) : Prop :=
  after = before ∨ after = before.without node.id

def Writes (bundle : Bundle) (before after : Contents) : Prop := after = before.holding bundle

def WritesHalf (bundle : Bundle) (before after : Contents) : Prop :=
  after = before ∨ after = before.holding bundle

def Lists (references : References) (before after : Contents) : Prop :=
  after = before.withReferences references.target
    (if references.isEmpty then none else some references)

def ListsHalf (references : References) (before after : Contents) : Prop :=
  after = before ∨ Lists references before after

end Contents

namespace ChangeLog

/-- The changes to staged bundles, in the order in which they are made. -/
def changes (log : ChangeLog) : List Change :=
  log.modifiedNodes.map Change.update ++ log.modifiedProperties.map Change.put ++
    log.deletedProperties.map Change.drop ++ log.addedProperties.map Change.put

def Deletes (log : ChangeLog) (id : NodeId) : Prop := ∃ node ∈ log.deletedNodes, node.id = id

instance (log : ChangeLog) (id : NodeId) : Decidable (log.Deletes id) :=
  inferInstanceAs (Decidable (∃ node ∈ log.deletedNodes, node.id = id))

end ChangeLog

def Draft.added (nodes : List Node) (staged : NodeId → Option Bundle) : NodeId → Option Bundle :=
  nodes.foldl (fun staged node =>
    Function.update staged node.id (some (Bundle.ofNode node).record)) staged

/-- Where staging starts: with an empty bundle for each added node, the last one of each id. -/
def Draft.start (nodes : List Node) (contents : Contents) : Draft :=
  ⟨Draft.added nodes (fun _ => none), contents⟩

/-- The bundles are those that are staged. -/
def Draft.Gives (draft : Draft) (bundles : List Bundle) : Prop :=
  ∀ id record, draft.staged id = some record ↔
    ∃ bundle ∈ bundles, bundle.id = id ∧ bundle.record = record

/-- What a store that goes well comes to. -/
inductive Applied (faults : Faults) (threshold : Nat) (log : ChangeLog) (before after : Contents) :
    Prop where
  | intro (cleared : Contents) (draft : Draft) (bundles : List Bundle) (written : Contents)
      (deleted : Chain (Contents.Deletes faults) log.deletedNodes before cleared)
      (made : Chain (Change.Makes faults threshold log.Deletes) log.changes
        (Draft.start log.addedNodes cleared) draft)
      (gives : draft.Gives bundles)
      (wrote : Chain Contents.Writes bundles draft.contents written)
      (listed : Chain Contents.Lists log.references written after)

/-- What a store that fails leaves behind, by the pass in which it fails. -/
inductive Abandoned (faults : Faults) (threshold : Nat) (log : ChangeLog)
    (before after : Contents) : Prop where
  | deleting
      (cut : Breaks (Contents.Deletes faults) Contents.DeletesHalf log.deletedNodes before after)
  | staging (cleared : Contents)
      (deleted : Chain (Contents.Deletes faults) log.deletedNodes before cleared)
      (cut : Breaks (Change.Makes faults threshold log.Deletes) (Change.Spoils faults)
        log.changes (Draft.start log.addedNodes cleared) after)
  | writing (cleared : Contents) (draft : Draft) (bundles : List Bundle)
      (deleted : Chain (Contents.Deletes faults) log.deletedNodes before cleared)
      (made : Chain (Change.Makes faults threshold log.Deletes) log.changes
        (Draft.start log.addedNodes cleared) draft)
      (gives : draft.Gives bundles)
      (cut : Breaks Contents.Writes Contents.WritesHalf bundles draft.contents after)
  | listing (cleared : Contents) (draft : Draft) (bundles : List Bundle) (written : Contents)
      (deleted : Chain (Contents.Deletes faults) log.deletedNodes before cleared)
      (made : Chain (Change.Makes faults threshold log.Deletes) log.changes
        (Draft.start log.addedNodes cleared) draft)
      (gives : draft.Gives bundles)
      (wrote : Chain Contents.Writes bundles draft.contents written)
      (cut : Breaks Contents.Lists Contents.ListsHalf log.references written after)

end BundleStore
