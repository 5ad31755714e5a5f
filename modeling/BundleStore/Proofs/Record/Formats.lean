import BundleStore.Proofs.Record.Codecs
import BundleStore.Proofs.SortedMap
import BundleStore.Proofs.Storage.Contents
import BundleStore.Record.Format
import BundleStore.Record.Frame

set_option autoImplicit false

/-! Records are read back as they were written. Of a bundle what is read back is its record: it is
in step with storage, and nothing is computed yet. -/

namespace BundleStore

namespace SortedMap

variable {κ α : Type} [Ord κ] [Std.TransOrd κ]

theorem place_last (key : κ) (value : α) (list : List (κ × α))
    (later : ∀ entry ∈ list, compare entry.1 key = .lt) :
    place key value list = list ++ [(key, value)] := by
  induction list with
  | nil => rfl
  | cons head rest ih =>
      obtain ⟨present, old⟩ := head
      have after : compare key present = .gt :=
        Std.OrientedCmp.gt_iff_lt.mpr (later _ List.mem_cons_self)
      rw [place, after]
      exact congrArg ((present, old) :: ·)
        (ih (fun entry member => later entry (List.mem_cons_of_mem _ member)))

/-- Entries that are put in their order in one after another stay as they are. -/
theorem entries_foldl_insert (front : SortedMap κ α) (list : List (κ × α))
    (increasing : (front.entries ++ list).Pairwise (fun left right =>
      compare left.1 right.1 = .lt)) :
    (list.foldl (fun map entry => map.insert entry.1 entry.2) front).entries =
      front.entries ++ list := by
  induction list generalizing front with
  | nil => exact (List.append_nil _).symm
  | cons head rest ih =>
      have placed : (front.insert head.1 head.2).entries = front.entries ++ [head] := by
        apply place_last head.1 head.2 front.entries
        intro entry member
        exact (List.pairwise_append.mp increasing).2.2 entry member head List.mem_cons_self
      rw [List.foldl_cons, ih, placed, List.append_assoc]
      · rfl
      · rw [placed, List.append_assoc]
        exact increasing

theorem ofList_entries (map : SortedMap κ α) : ofList map.entries = map := by
  have same := entries_foldl_insert empty map.entries map.increasing
  cases map
  exact (mk.injEq ..).mpr same

theorem ofElements_elements (set : SortedSet κ) :
    SortedSet.ofElements (SortedSet.elements set) = set := by
  have mapped : SortedSet.ofElements (SortedSet.elements set) = ofList set.entries := by
    rw [SortedSet.ofElements, SortedSet.elements, keys, List.foldl_map]
    rfl
  exact mapped.trans (ofList_entries set)

end SortedMap

namespace Record

open Codec

/-! ### Identifiers and values -/

theorem bytes_some (value : List UInt8) : 0 < (bytes.write value).length := by
  change 0 < (littleEndian 8 value.length ++ value).length
  rw [List.length_append, length_littleEndian]
  omega

theorem nodeId_lawful : nodeId.Lawful :=
  bytes_lawful.refine (fun value => dif_pos value.sixteen)

theorem name_lawful : name.Lawful := (text_lawful.pair text_lawful).refine (fun _value => rfl)

theorem name_some (value : Name) : 0 < (name.write value).length := by
  change 0 < (text.write value.namespaceUri ++ text.write value.localName).length
  have first : 0 < (text.write value.namespaceUri).length := bytes_some _
  rw [List.length_append]
  omega

theorem propertyId_lawful : propertyId.Lawful :=
  (nodeId_lawful.pair name_lawful).refine (fun _value => rfl)

theorem set_lawful {κ : Type} [Ord κ] [Std.TransOrd κ] {key : Codec κ} (lawful : key.Lawful)
    (some : ∀ value, 0 < (key.write value).length) : (set key).Lawful :=
  (lawful.list some).refine (fun elements => congrArg _ (SortedMap.ofElements_elements elements))

theorem map_lawful {κ α : Type} [Ord κ] [Std.TransOrd κ] {key : Codec κ} {value : Codec α}
    (keys : key.Lawful) (some : ∀ element, 0 < (key.write element).length)
    (values : value.Lawful) : (map key value).Lawful := by
  refine ((keys.pair values).list (fun entry => ?_)).refine
    (fun entries => congrArg _ (SortedMap.ofList_entries entries))
  change 0 < (key.write entry.1 ++ value.write entry.2).length
  have first := some entry.1
  rw [List.length_append]
  omega

theorem valueType_lawful : valueType.Lawful :=
  choice_lawful (fun value => by cases value <;> decide) (by decide)

theorem read_tagged {τ α β : Type} {tag : Codec τ} {codec : Codec α} {kind : τ}
    (tagged : tag.Yields kind kind) (lawful : codec.Lawful) (make : α → β) (content : α)
    (next : τ × List UInt8 → Option (β × List UInt8))
    (chosen : ∀ rest, next (kind, rest) =
      (codec.read rest).map (fun (found, rest) => (make found, rest)))
    (rest : List UInt8)
    (short : (tag.write kind ++ codec.write content).length < 0x10000000000000000) :
    (tag.read ((tag.write kind ++ codec.write content) ++ rest)).bind next =
      some (make content, rest) := by
  rw [List.length_append] at short
  rw [List.append_assoc, tagged (by omega), Option.bind_some, chosen,
    lawful content rest (by omega)]
  rfl

theorem value_lawful : value.Lawful := by
  intro content rest short
  have typed := valueType_lawful.yields content.type
  dsimp only [value] at short ⊢
  cases content with
  | string held => exact read_tagged typed text_lawful Value.string held _ (fun _ => rfl) rest short
  | binary held =>
      exact read_tagged typed bytes_lawful Value.binary held _ (fun _ => rfl) rest short
  | long held => exact read_tagged typed signed64_lawful Value.long held _ (fun _ => rfl) rest short
  | double held =>
      exact read_tagged typed word64_lawful Value.double held _ (fun _ => rfl) rest short
  | date held => exact read_tagged typed signed64_lawful Value.date held _ (fun _ => rfl) rest short
  | boolean held =>
      exact read_tagged typed boolean_lawful Value.boolean held _ (fun _ => rfl) rest short
  | name held => exact read_tagged typed name_lawful Value.name held _ (fun _ => rfl) rest short
  | path held => exact read_tagged typed text_lawful Value.path held _ (fun _ => rfl) rest short
  | reference held =>
      exact read_tagged typed nodeId_lawful Value.reference held _ (fun _ => rfl) rest short

/-! ### Properties and bundles -/

theorem storedValue_lawful : storedValue.Lawful := by
  intro stored rest short
  have tagged {kind : Nat} (small : kind < 256 ^ 4) : (number 4).Yields kind kind :=
    number_yields small
  dsimp only [storedValue] at short ⊢
  cases stored with
  | inline content =>
      exact read_tagged (tagged (by decide)) value_lawful StoredValue.inline content _
        (fun _ => rfl) rest short
  | blob id length =>
      have both := text_lawful.pair word64_lawful
      exact read_tagged (tagged (by decide)) both (fun held => StoredValue.blob held.1 held.2)
        (id, length) _ (fun _ => rfl) rest short

theorem storedValue_some (stored : StoredValue) : 0 < (storedValue.write stored).length := by
  cases stored with
  | inline content =>
      change 0 < (littleEndian 4 0 ++ value.write content).length
      rw [List.length_append, length_littleEndian]
      omega
  | blob id length =>
      change 0 < (littleEndian 4 1 ++ (text.pair word64).write (id, length)).length
      rw [List.length_append, length_littleEndian]
      omega

theorem storedProperty_lawful : storedProperty.Lawful :=
  (propertyId_lawful.pair (valueType_lawful.pair (boolean_lawful.pair
    (word16_lawful.pair (storedValue_lawful.list storedValue_some))))).refine (fun _value => rfl)

theorem child_lawful : child.Lawful :=
  (name_lawful.pair (nodeId_lawful.pair word32_lawful)).refine (fun _value => rfl)

theorem child_some (entry : Child) : 0 < (child.write entry).length := by
  change 0 < (name.write entry.name ++ (nodeId.pair word32).write (entry.id, entry.index)).length
  have first := name_some entry.name
  rw [List.length_append]
  omega

/-- What is read of a bundle is its record. -/
theorem bundle_yields (written : Bundle) : bundle.Yields written written.record := by
  have fields := nodeId_lawful.pair (nodeId_lawful.optional.pair (name_lawful.pair
    ((set_lawful name_lawful name_some).pair ((child_lawful.list child_some).pair
      (map_lawful name_lawful name_some storedProperty_lawful)))))
  exact Yields.refine (fields.yields _) rfl

theorem propertyId_some (value : PropertyId) : 0 < (propertyId.write value).length := by
  change 0 < (nodeId.write value.node ++ name.write value.name).length
  have last := name_some value.name
  rw [List.length_append]
  omega

theorem references_lawful : references.Lawful :=
  (nodeId_lawful.pair (set_lawful propertyId_lawful propertyId_some)).refine (fun _value => rfl)

/-! ### Frames -/

theorem unframe_parts {length checksum : List UInt8} (four : length.length = 4)
    (next : checksum.length = 4) (payload : List UInt8) :
    unframe (length ++ (checksum ++ payload)) =
      if payload.length ≠ ofLittleEndian length then
        .error (.wrongLength (ofLittleEndian length) payload.length)
      else if Checksum.crc32 payload ≠ UInt32.ofNat (ofLittleEndian checksum) then
        .error (.wrongChecksum (UInt32.ofNat (ofLittleEndian checksum)) (Checksum.crc32 payload))
      else .ok payload := by
  have sized : ¬ (length ++ (checksum ++ payload)).length < headerSize := by
    rw [List.length_append, List.length_append, four, next, headerSize]
    omega
  have after : (length ++ (checksum ++ payload)).drop 4 = checksum ++ payload :=
    List.drop_left' four
  have rest : (length ++ (checksum ++ payload)).drop headerSize = payload := by
    rw [show headerSize = 4 + 4 from rfl, ← List.drop_drop, after]
    exact List.drop_left' next
  rw [unframe, if_neg sized, List.take_left' four, after, List.take_left' next, rest]

theorem unframe_frame {payload framed : List UInt8} (fits : frame payload = .ok framed) :
    unframe framed = .ok payload ∧ payload.length < lengthLimit := by
  rw [frame] at fits
  split at fits
  · rename_i small
    cases fits
    have checksum : UInt32.ofNat (ofLittleEndian (littleEndian 4 (Checksum.crc32 payload).toNat)) =
        Checksum.crc32 payload := by
      rw [ofLittleEndian_littleEndian 4 _ (Checksum.crc32 payload).toNat_lt]
      exact UInt32.ofNat_toNat
    rw [unframe_parts (length_littleEndian 4 _) (length_littleEndian 4 _), checksum,
      ofLittleEndian_littleEndian 4 _ small, if_neg (not_not_intro rfl), if_neg (not_not_intro rfl)]
    exact ⟨rfl, small⟩
  · cases fits

/-- What is encoded is decoded, as far as the codec yields it. -/
theorem decode_encode {α : Type} {codec : Codec α} {written found : α}
    (yields : codec.Yields written found) {bytes : List UInt8}
    (encoded : encode codec written = .ok bytes) (record : String) :
    decode codec bytes record = .ok found := by
  obtain ⟨unframed, small⟩ := unframe_frame encoded
  have read := yields (Nat.lt_trans small (by decide)) []
  rw [List.append_nil] at read
  rw [decode, unframed]
  change ((readPayload codec (codec.write written)).mapError _) = _
  rw [readPayload, read]
  rfl

end Record

end BundleStore
