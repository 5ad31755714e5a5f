import BundleStore.Proofs.Record.Formats
import Mathlib.Algebra.Group.Int.Defs

set_option autoImplicit false

/-! How values are laid out in records, told apart from the codecs. Any value is a datum: a number of
fixed width, parts in a row, a counted sequence, something that may be missing, or one of several
numbered alternatives. The codecs write the bytes of the datum, and records are read back. -/

namespace BundleStore.Record

inductive Datum where
  /-- A whole number in so many bytes. -/
  | number (width value : Nat)
  | parts (list : List Datum)
  /-- The elements come after their count. -/
  | sequence (elements : List Datum)
  | absent
  | present (content : Datum)
  /-- One of several alternatives, numbered from zero. -/
  | alternative (index : Nat) (content : Datum)

namespace Datum

/-- The digits of a number in base 256, the least significant one first. -/
def numeral (width value : Nat) : List UInt8 :=
  (List.range width).map (fun place => UInt8.ofNat (value / 256 ^ place))

mutual

/-- A count takes eight bytes, the number of an alternative four, and whether something is there
one. -/
def bytes : Datum → List UInt8
  | .number width value => numeral width value
  | .parts list => bytesOf list
  | .sequence elements => numeral 8 elements.length ++ bytesOf elements
  | .absent => numeral 1 0
  | .present content => numeral 1 1 ++ content.bytes
  | .alternative index content => numeral 4 index ++ content.bytes

def bytesOf : List Datum → List UInt8
  | [] => []
  | datum :: rest => datum.bytes ++ bytesOf rest

end

/-! ### The datum of each kind of value -/

def ofBytes (bytes : List UInt8) : Datum :=
  .sequence (bytes.map (fun byte => .number 1 byte.toNat))

def ofText (text : String) : Datum := ofBytes text.toUTF8.data.toList

def ofBoolean (truth : Bool) : Datum := .number 1 (if truth then 1 else 0)

/-- Numbers below zero are counted down from the first one that takes nine bytes. -/
def ofSigned (value : Int64) : Datum := .number 8 (value.toInt % 2 ^ 64).toNat

def ofOption {α : Type} (datum : α → Datum) : Option α → Datum
  | none => .absent
  | some value => .present (datum value)

def ofList {α : Type} (datum : α → Datum) (values : List α) : Datum :=
  .sequence (values.map datum)

def ofSet {κ : Type} [Ord κ] (key : κ → Datum) (set : SortedSet κ) : Datum :=
  ofList key set.elements

def ofMap {κ α : Type} [Ord κ] (key : κ → Datum) (value : α → Datum) (map : SortedMap κ α) :
    Datum :=
  ofList (fun entry => .parts [key entry.1, value entry.2]) map.entries

def ofNodeId (id : NodeId) : Datum := ofBytes id.bytes

def ofName (name : Name) : Datum := .parts [ofText name.namespaceUri, ofText name.localName]

def ofPropertyId (id : PropertyId) : Datum := .parts [ofNodeId id.node, ofName id.name]

def ofItemId : ItemId → Datum
  | .node id => .alternative 0 (ofNodeId id)
  | .property id => .alternative 1 (ofPropertyId id)

def ofType : ValueType → Datum
  | .string => .alternative 0 (.parts [])
  | .binary => .alternative 1 (.parts [])
  | .long => .alternative 2 (.parts [])
  | .double => .alternative 3 (.parts [])
  | .date => .alternative 4 (.parts [])
  | .boolean => .alternative 5 (.parts [])
  | .name => .alternative 6 (.parts [])
  | .path => .alternative 7 (.parts [])
  | .reference => .alternative 8 (.parts [])

def ofStatus : Status → Datum
  | .new => .alternative 0 (.parts [])
  | .existing => .alternative 1 (.parts [])
  | .existingModified => .alternative 2 (.parts [])
  | .existingRemoved => .alternative 3 (.parts [])

def ofValue : Value → Datum
  | .string text => .alternative 0 (ofText text)
  | .binary bytes => .alternative 1 (ofBytes bytes)
  | .long value => .alternative 2 (ofSigned value)
  | .double bits => .alternative 3 (.number 8 bits.toNat)
  | .date milliseconds => .alternative 4 (ofSigned milliseconds)
  | .boolean truth => .alternative 5 (ofBoolean truth)
  | .name name => .alternative 6 (ofName name)
  | .path text => .alternative 7 (ofText text)
  | .reference target => .alternative 8 (ofNodeId target)

def ofStored : StoredValue → Datum
  | .inline value => .alternative 0 (ofValue value)
  | .blob id length => .alternative 1 (.parts [ofText id, .number 8 length.toNat])

def ofStoredProperty (property : StoredProperty) : Datum :=
  .parts [ofPropertyId property.id, ofType property.type, ofBoolean property.multiple,
    .number 2 property.modCount.toNat, ofList ofStored property.values]

def ofChild (child : Child) : Datum :=
  .parts [ofName child.name, ofNodeId child.id, .number 4 child.index.toNat]

/-- Neither whether the bundle is new nor what was computed is in the record. -/
def ofBundle (bundle : Bundle) : Datum :=
  .parts [ofNodeId bundle.id, ofOption ofNodeId bundle.parent, ofName bundle.nodeType,
    ofSet ofName bundle.mixins, ofList ofChild bundle.children,
    ofMap ofName ofStoredProperty bundle.properties]

def ofReferences (references : References) : Datum :=
  .parts [ofNodeId references.target, ofSet ofPropertyId references.referrers]

def ofNode (node : Node) : Datum :=
  .parts [ofNodeId node.id, ofOption ofNodeId node.parent, ofName node.nodeType,
    ofSet ofName node.mixins, ofList ofChild node.children, ofSet ofName node.properties,
    ofStatus node.status]

def ofProperty (property : Property) : Datum :=
  .parts [ofPropertyId property.id, ofType property.type, ofBoolean property.multiple,
    ofList ofValue property.values, ofStatus property.status, .number 2 property.modCount.toNat]

def ofItem : Item → Datum
  | .node state => .alternative 0 (ofNode state)
  | .property state => .alternative 1 (ofProperty state)

end Datum

/-! ### What the codecs write -/

theorem numeral_eq_littleEndian (width value : Nat) :
    Datum.numeral width value = littleEndian width value := by
  induction width generalizing value with
  | zero => rfl
  | succ width ih =>
      have first : UInt8.ofNat (value / 256 ^ 0) = UInt8.ofNat value := by
        rw [Nat.pow_zero, Nat.div_one]
      have later (place : Nat) : value / 256 ^ (place + 1) = value / 256 / 256 ^ place := by
        rw [Nat.pow_succ, Nat.mul_comm, Nat.div_div_eq_div_mul]
      rw [littleEndian, ← ih, Datum.numeral, List.range_succ_eq_map, List.map_cons, List.map_map,
        first]
      simp only [Function.comp_def, Nat.succ_eq_add_one, later]
      rfl

namespace Codec

variable {α β : Type} {codec : Codec α} {datum : α → Datum}

/-- What is written of a value are the bytes of its datum. -/
def Writes (codec : Codec α) (datum : α → Datum) : Prop :=
  ∀ value, codec.write value = (datum value).bytes

theorem Writes.refine (writes : codec.Writes datum) (write : β → α) (read : α → Option β) :
    (codec.refine write read).Writes (fun value => datum (write value)) :=
  fun value => writes (write value)

theorem number_writes (width : Nat) : (number width).Writes (.number width) :=
  fun value => (numeral_eq_littleEndian width value).symm

/-- A value in front of values that are parts in a row is one more part. -/
theorem Writes.cons (writes : codec.Writes datum) {others : Codec β} {rest : β → List Datum}
    (further : others.Writes (fun value => .parts (rest value))) :
    (codec.pair others).Writes (fun value => .parts (datum value.1 :: rest value.2)) := by
  intro value
  change codec.write value.1 ++ others.write value.2 = _
  rw [writes, further]
  rfl

theorem Writes.pair (writes : codec.Writes datum) {other : Codec β} {last : β → Datum}
    (further : other.Writes last) :
    (codec.pair other).Writes (fun value => .parts [datum value.1, last value.2]) := by
  have alone : other.Writes (fun value => .parts [last value]) :=
    fun value => (further value).trans (List.append_nil _).symm
  exact writes.cons alone

theorem Writes.list (writes : codec.Writes datum) : codec.list.Writes (Datum.ofList datum) := by
  intro values
  have elements : Datum.bytesOf (values.map datum) = values.flatMap codec.write := by
    induction values with
    | nil => rfl
    | cons value rest ih => rw [List.map_cons, Datum.bytesOf, ih, List.flatMap_cons, writes]
  change littleEndian 8 values.length ++ values.flatMap codec.write = _
  rw [Datum.ofList, Datum.bytes, numeral_eq_littleEndian, List.length_map, elements]

theorem Writes.optional (writes : codec.Writes datum) :
    codec.optional.Writes (Datum.ofOption datum) := by
  intro value
  cases value with
  | none => rfl
  | some value =>
      change 1 :: codec.write value = Datum.numeral 1 1 ++ (datum value).bytes
      rw [writes]
      rfl

theorem bytes_writes : bytes.Writes Datum.ofBytes := by
  intro value
  have digits (byte : UInt8) : Datum.numeral 1 byte.toNat = [byte] := by
    rw [numeral_eq_littleEndian, littleEndian, littleEndian, UInt8.ofNat_toNat]
  have each (bytes : List UInt8) :
      Datum.bytesOf (bytes.map (fun byte => .number 1 byte.toNat)) = bytes := by
    induction bytes with
    | nil => rfl
    | cons byte rest ih =>
        rw [List.map_cons, Datum.bytesOf, Datum.bytes, ih, digits]
        rfl
  change littleEndian 8 value.length ++ value = _
  rw [Datum.ofBytes, Datum.bytes, numeral_eq_littleEndian, List.length_map, each]

theorem text_writes : text.Writes Datum.ofText := bytes_writes.refine _ _

theorem boolean_writes : boolean.Writes Datum.ofBoolean := by
  intro truth
  cases truth <;> rfl

theorem signed64_writes : signed64.Writes Datum.ofSigned := by
  intro value
  have signed : value.toInt = (value.toUInt64.toNat : Int).bmod (2 ^ 64) :=
    BitVec.toInt_eq_toNat_bmod value.toBitVec
  have counted : (value.toInt % 2 ^ 64).toNat = value.toUInt64.toNat := by
    have small := value.toUInt64.toNat_lt
    rw [signed, show (2 ^ 64 : Int) = ((2 ^ 64 : Nat) : Int) from rfl, Int.bmod_emod]
    omega
  rw [Datum.ofSigned, counted]
  exact number_writes 8 value.toUInt64.toNat

end Codec

open Codec

theorem nodeId_writes : nodeId.Writes Datum.ofNodeId := bytes_writes.refine _ _

theorem name_writes : name.Writes Datum.ofName := (text_writes.pair text_writes).refine _ _

theorem propertyId_writes : propertyId.Writes Datum.ofPropertyId :=
  (nodeId_writes.pair name_writes).refine _ _

theorem set_writes {κ : Type} [Ord κ] [Std.TransOrd κ] {key : Codec κ} {datum : κ → Datum}
    (writes : key.Writes datum) : (set key).Writes (Datum.ofSet datum) :=
  writes.list.refine _ _

theorem map_writes {κ α : Type} [Ord κ] [Std.TransOrd κ] {key : Codec κ} {value : Codec α}
    {datum : κ → Datum} {other : α → Datum} (keys : key.Writes datum)
    (values : value.Writes other) : (map key value).Writes (Datum.ofMap datum other) :=
  (keys.pair values).list.refine _ _

theorem valueType_writes : valueType.Writes Datum.ofType := by
  intro type
  cases type <;> rfl

theorem status_writes : status.Writes Datum.ofStatus := by
  intro status
  cases status <;> rfl

/-- The number of an alternative, then what it holds. -/
theorem write_tagged {τ α : Type} {tag : Codec τ} {codec : Codec α} {datum : α → Datum} {kind : τ}
    {index : Nat} (tagged : tag.write kind = littleEndian 4 index) (writes : codec.Writes datum)
    (content : α) :
    tag.write kind ++ codec.write content = (Datum.alternative index (datum content)).bytes := by
  rw [tagged, writes, Datum.bytes, numeral_eq_littleEndian]

theorem value_writes : value.Writes Datum.ofValue := by
  intro value
  cases value with
  | string held => exact write_tagged rfl text_writes held
  | binary held => exact write_tagged rfl bytes_writes held
  | long held => exact write_tagged rfl signed64_writes held
  | double held => exact write_tagged rfl ((number_writes 8).refine UInt64.toNat _) held
  | date held => exact write_tagged rfl signed64_writes held
  | boolean held => exact write_tagged rfl boolean_writes held
  | name held => exact write_tagged rfl name_writes held
  | path held => exact write_tagged rfl text_writes held
  | reference held => exact write_tagged rfl nodeId_writes held

theorem word_writes (width : Nat) {α : Type} (number : α → Nat) (read : Nat → Option α) :
    ((Codec.number width).refine number read).Writes (fun word => .number width (number word)) :=
  (number_writes width).refine number read

theorem storedValue_writes : storedValue.Writes Datum.ofStored := by
  intro stored
  cases stored with
  | inline content =>
      change (number 4).write 0 ++ value.write content = _
      exact write_tagged rfl value_writes content
  | blob id length =>
      change (number 4).write 1 ++ (text.pair word64).write (id, length) = _
      exact write_tagged rfl (text_writes.pair (word_writes 8 UInt64.toNat _)) (id, length)

theorem storedProperty_writes : storedProperty.Writes Datum.ofStoredProperty :=
  (propertyId_writes.cons (valueType_writes.cons (boolean_writes.cons
    ((word_writes 2 UInt16.toNat _).pair storedValue_writes.list)))).refine _ _

theorem child_writes : child.Writes Datum.ofChild :=
  (name_writes.cons (nodeId_writes.pair (word_writes 4 UInt32.toNat _))).refine _ _

theorem bundle_writes : bundle.Writes Datum.ofBundle :=
  (nodeId_writes.cons (nodeId_writes.optional.cons (name_writes.cons ((set_writes name_writes).cons
    (child_writes.list.pair (map_writes name_writes storedProperty_writes)))))).refine _ _

theorem references_writes : references.Writes Datum.ofReferences :=
  (nodeId_writes.pair (set_writes propertyId_writes)).refine _ _

theorem node_writes : node.Writes Datum.ofNode :=
  (nodeId_writes.cons (nodeId_writes.optional.cons (name_writes.cons ((set_writes name_writes).cons
    (child_writes.list.cons ((set_writes name_writes).pair status_writes)))))).refine _ _

theorem property_writes : property.Writes Datum.ofProperty :=
  (propertyId_writes.cons (valueType_writes.cons (boolean_writes.cons
    (value_writes.list.cons (status_writes.pair (word_writes 2 UInt16.toNat _)))))).refine _ _

theorem item_writes : item.Writes Datum.ofItem := by
  intro state
  cases state with
  | node held =>
      change (number 4).write 0 ++ node.write held = _
      exact write_tagged rfl node_writes held
  | property held =>
      change (number 4).write 1 ++ property.write held = _
      exact write_tagged rfl property_writes held

theorem itemId_writes : itemId.Writes Datum.ofItemId := by
  intro id
  cases id with
  | node held =>
      change (number 4).write 0 ++ nodeId.write held = _
      exact write_tagged rfl nodeId_writes held
  | property held =>
      change (number 4).write 1 ++ propertyId.write held = _
      exact write_tagged rfl propertyId_writes held

/-! ### Records of every kind -/

theorem value_some (held : Value) : 0 < (value.write held).length := by
  rw [value_writes]
  cases held <;>
    (rw [Datum.ofValue, Datum.bytes, List.length_append, numeral_eq_littleEndian,
      length_littleEndian]
     omega)

theorem status_lawful : status.Lawful :=
  choice_lawful (fun value => by cases value <;> decide) (by decide)

theorem node_lawful : node.Lawful :=
  (nodeId_lawful.pair (nodeId_lawful.optional.pair (name_lawful.pair
    ((set_lawful name_lawful name_some).pair ((child_lawful.list child_some).pair
      ((set_lawful name_lawful name_some).pair status_lawful)))))).refine (fun _value => rfl)

theorem property_lawful : property.Lawful :=
  (propertyId_lawful.pair (valueType_lawful.pair (boolean_lawful.pair
    ((value_lawful.list value_some).pair (status_lawful.pair word16_lawful))))).refine
      (fun _value => rfl)

theorem item_lawful : item.Lawful := by
  intro state rest short
  have tagged {kind : Nat} (small : kind < 256 ^ 4) : (number 4).Yields kind kind :=
    number_yields small
  dsimp only [item] at short ⊢
  cases state with
  | node held =>
      exact read_tagged (tagged (by decide)) node_lawful Item.node held _ (fun _ => rfl) rest short
  | property held =>
      exact read_tagged (tagged (by decide)) property_lawful Item.property held _ (fun _ => rfl)
        rest short

theorem itemId_lawful : itemId.Lawful := by
  intro id rest short
  have tagged {kind : Nat} (small : kind < 256 ^ 4) : (number 4).Yields kind kind :=
    number_yields small
  dsimp only [itemId] at short ⊢
  cases id with
  | node held =>
      exact read_tagged (tagged (by decide)) nodeId_lawful ItemId.node held _ (fun _ => rfl) rest
        short
  | property held =>
      exact read_tagged (tagged (by decide)) propertyId_lawful ItemId.property held _
        (fun _ => rfl) rest short

/-- A value whose bytes can be counted in the header of a frame is framed: the length and the
checksum of the bytes, then the bytes of its datum. From the frame it is read back, or what storage
keeps of it. -/
def ReadsBack {α : Type} (codec : Codec α) (datum : α → Datum) (kept : α → α) : Prop :=
  ∀ value, (datum value).bytes.length < lengthLimit → ∃ framed,
    encode codec value = .ok framed ∧
    framed = Datum.numeral 4 (datum value).bytes.length ++
      (Datum.numeral 4 (Checksum.crc32 (datum value).bytes).toNat ++ (datum value).bytes) ∧
    ∀ record, decode codec framed record = .ok (kept value)

theorem Codec.Writes.readsBack {α : Type} {codec : Codec α} {datum : α → Datum}
    (writes : codec.Writes datum) {kept : α → α}
    (yields : ∀ value, codec.Yields value (kept value)) : ReadsBack codec datum kept := by
  intro value small
  rw [← writes value] at small ⊢
  have framed : encode codec value = .ok _ := if_pos small
  refine ⟨_, framed, ?_, fun record => decode_encode (yields value) framed record⟩
  rw [numeral_eq_littleEndian, numeral_eq_littleEndian]

/-- Records of every kind are read back. Of a bundle all is kept but whether it is new and what was
computed. -/
theorem records_read_back :
    ReadsBack bundle Datum.ofBundle
        (fun bundle => { bundle with isNew := false, computed := SortedMap.empty }) ∧
      ReadsBack references Datum.ofReferences id ∧
      ReadsBack value Datum.ofValue id ∧
      ReadsBack item Datum.ofItem id ∧
      ReadsBack itemId Datum.ofItemId id :=
  ⟨bundle_writes.readsBack bundle_yields,
    references_writes.readsBack references_lawful.yields,
    value_writes.readsBack value_lawful.yields,
    item_writes.readsBack item_lawful.yields,
    itemId_writes.readsBack itemId_lawful.yields⟩

/-- A new node with a mixin, a child, a number that is none, and a letter of which one part is kept
as a blob. Its identifier has been asked for. -/
def sampleBundle : Bundle :=
  let node := (Node.fresh NodeId.zero Name.unstructured (some NodeId.zero)).addChild ⟨"", "desk"⟩
    NodeId.zero
  { Bundle.ofNode { node with mixins := SortedSet.ofElements [Name.referenceable] } with
    properties := SortedMap.ofList
      [(⟨"", "weight"⟩, ⟨⟨NodeId.zero, ⟨"", "weight"⟩⟩, .double, false, 7,
          [.inline (.double 0x7FF8000000000000)]⟩),
        (⟨"urn:a", "letter"⟩, ⟨⟨NodeId.zero, ⟨"urn:a", "letter"⟩⟩, .binary, true, 0,
          [.blob "00/letter.0" 3, .inline (.binary [1, 2])]⟩)]
    computed := SortedMap.empty.insert Name.uuid
      (Property.single ⟨NodeId.zero, Name.uuid⟩ (.string NodeId.zero.text)) }

theorem sample_reads_back : (Datum.ofBundle sampleBundle).bytes.length < lengthLimit ∧
    ∃ framed, encode bundle sampleBundle = .ok framed ∧
      framed.drop headerSize = (Datum.ofBundle sampleBundle).bytes ∧
      decode bundle framed "sample" =
        .ok { sampleBundle with isNew := false, computed := SortedMap.empty } := by
  have small : (Datum.ofBundle sampleBundle).bytes.length < lengthLimit := by decide +kernel
  obtain ⟨framed, encoded, shape, decoded⟩ := records_read_back.1 sampleBundle small
  refine ⟨small, framed, encoded, ?_, decoded "sample"⟩
  rw [shape]
  rfl

end BundleStore.Record
