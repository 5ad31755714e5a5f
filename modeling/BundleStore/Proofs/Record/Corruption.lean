import BundleStore.Proofs.Checksum
import BundleStore.Proofs.Record.Formats

set_option autoImplicit false

/-! A damaged record is found out. Only a frame is unframed: the bytes that are accepted are those
that are written for the payload. So damage would have to turn one frame into another, and between
two frames there is no such step: a cut or a longer record does not have the length that it declares,
and one byte of the payload is never changed without the checksum. -/

namespace BundleStore.Record

theorem ofLittleEndian_lt (bytes : List UInt8) : ofLittleEndian bytes < 256 ^ bytes.length := by
  induction bytes with
  | nil => exact Nat.one_pos
  | cons byte rest ih =>
      have first := byte.toNat_lt
      rw [ofLittleEndian, List.length_cons, Nat.pow_succ]
      omega

theorem littleEndian_ofLittleEndian (bytes : List UInt8) :
    littleEndian bytes.length (ofLittleEndian bytes) = bytes := by
  induction bytes with
  | nil => rfl
  | cons byte rest ih =>
      have first := byte.toNat_lt
      have low : UInt8.ofNat (byte.toNat + 256 * ofLittleEndian rest) = byte := by
        apply UInt8.toNat_inj.mp
        rw [UInt8.toNat_ofNat']
        omega
      have high : (byte.toNat + 256 * ofLittleEndian rest) / 256 = ofLittleEndian rest := by omega
      rw [ofLittleEndian, List.length_cons, littleEndian, low, high, ih]

theorem littleEndian_injective {width left right : Nat} (first : left < 256 ^ width)
    (second : right < 256 ^ width) (same : littleEndian width left = littleEndian width right) :
    left = right := by
  rw [← ofLittleEndian_littleEndian width left first, same,
    ofLittleEndian_littleEndian width right second]

/-! ### Frames -/

theorem frame_eq {payload framed : List UInt8} (fits : frame payload = .ok framed) :
    payload.length < lengthLimit ∧ framed = littleEndian 4 payload.length ++
      (littleEndian 4 (Checksum.crc32 payload).toNat ++ payload) := by
  rw [frame] at fits
  split at fits
  · rename_i small
    cases fits
    exact ⟨small, rfl⟩
  · cases fits

theorem frame_length {payload framed : List UInt8} (fits : frame payload = .ok framed) :
    framed.length = headerSize + payload.length := by
  rw [(frame_eq fits).2, List.length_append, List.length_append, length_littleEndian,
    length_littleEndian, headerSize]
  omega

theorem frame_declared {payload framed : List UInt8} (fits : frame payload = .ok framed) :
    framed.take 4 = littleEndian 4 payload.length := by
  rw [(frame_eq fits).2]
  exact List.take_left' (length_littleEndian 4 _)

theorem frame_checksum {payload framed : List UInt8} (fits : frame payload = .ok framed) :
    (framed.drop 4).take 4 = littleEndian 4 (Checksum.crc32 payload).toNat := by
  rw [(frame_eq fits).2, List.drop_left' (length_littleEndian 4 _)]
  exact List.take_left' (length_littleEndian 4 _)

theorem frame_payload {payload framed : List UInt8} (fits : frame payload = .ok framed) :
    framed.drop headerSize = payload := by
  rw [(frame_eq fits).2, ← List.append_assoc]
  exact List.drop_left' (by rw [List.length_append, length_littleEndian, length_littleEndian]; rfl)

/-- What is unframed is a frame, down to the last byte. -/
theorem frame_of_unframe {bytes payload : List UInt8} (unframed : unframe bytes = .ok payload) :
    frame payload = .ok bytes := by
  have long : ¬ bytes.length < headerSize := by
    intro short
    rw [unframe, if_pos short] at unframed
    cases unframed
  rw [headerSize] at long
  have four : (bytes.take 4).length = 4 := by
    rw [List.length_take]
    omega
  have next : ((bytes.drop 4).take 4).length = 4 := by
    rw [List.length_take, List.length_drop]
    omega
  have parts : bytes.take 4 ++ ((bytes.drop 4).take 4 ++ bytes.drop 8) = bytes := by
    rw [← List.drop_drop (i := 4) (j := 4), List.take_append_drop, List.take_append_drop]
  have length := littleEndian_ofLittleEndian (bytes.take 4)
  have checksum := littleEndian_ofLittleEndian ((bytes.drop 4).take 4)
  have bound := ofLittleEndian_lt (bytes.take 4)
  have checksumBound := ofLittleEndian_lt ((bytes.drop 4).take 4)
  rw [four] at length bound
  rw [next] at checksum checksumBound
  rw [← parts, unframe_parts four next] at unframed
  split at unframed
  · cases unframed
  · rename_i declared
    split at unframed
    · cases unframed
    · rename_i summed
      cases unframed
      rw [not_not] at declared summed
      rw [frame, if_pos (by rw [declared]; exact bound), declared, length, summed,
        UInt32.toNat_ofNat_of_lt' checksumBound, checksum, parts]

/-! ### Damage -/

inductive Damaged (record : List UInt8) : List UInt8 → Prop
  | altered (place : Nat) (byte : UInt8) (inside : place < record.length)
      (differs : record[place] ≠ byte) : Damaged record (record.set place byte)
  | cut (kept : Nat) (short : kept < record.length) : Damaged record (record.take kept)
  | extended (suffix : List UInt8) (more : suffix ≠ []) : Damaged record (record ++ suffix)

/-- The length that a frame declares decides how long it is. -/
theorem frame_length_eq {payload other framed changed : List UInt8}
    (fits : frame payload = .ok framed) (again : frame other = .ok changed)
    (same : framed.take 4 = changed.take 4) : framed.length = changed.length := by
  rw [frame_declared fits, frame_declared again] at same
  rw [frame_length fits, frame_length again,
    littleEndian_injective (frame_eq fits).1 (frame_eq again).1 same]

theorem not_frame_altered {payload other framed : List UInt8} (fits : frame payload = .ok framed)
    {place : Nat} {byte : UInt8} (inside : place < framed.length) (differs : framed[place] ≠ byte) :
    frame other ≠ .ok (framed.set place byte) := by
  intro again
  have found := frame_payload again
  by_cases header : place < headerSize
  · -- the payload is as it was, and it has one frame only
    rw [List.drop_set_of_lt header, frame_payload fits] at found
    rw [← found, fits] at again
    have same : framed = framed.set place byte := Except.ok.inj again
    apply differs
    have bytes := congrArg (fun bytes : List UInt8 => bytes[place]?) same
    simpa [inside] using bytes
  · -- the checksum is as it was, and it is not that of the payload now
    have length := frame_length fits
    have within : place - headerSize < payload.length := by omega
    have before : payload[place - headerSize] = framed[place] := by
      have payloads := frame_payload fits
      subst payloads
      rw [List.getElem_drop]
      congr 1
      omega
    rw [List.drop_set, if_neg header, frame_payload fits] at found
    have sums := frame_checksum again
    rw [List.drop_set, if_neg (by rw [headerSize] at header; omega),
      List.take_set_of_le (by rw [headerSize] at header; omega), frame_checksum fits, ← found] at sums
    have equal := littleEndian_injective (UInt32.toNat_lt _) (UInt32.toNat_lt _) sums
    rw [← before] at differs
    exact Checksum.crc32_set_ne within differs (UInt32.toNat_inj.mp equal).symm

theorem not_frame_damaged {payload other framed changed : List UInt8}
    (fits : frame payload = .ok framed) (damaged : Damaged framed changed) :
    frame other ≠ .ok changed := by
  cases damaged with
  | altered place byte inside differs => exact not_frame_altered fits inside differs
  | cut kept short =>
      intro again
      have length := frame_length again
      rw [List.length_take, headerSize] at length
      have same := frame_length_eq fits again (by rw [List.take_take, Nat.min_eq_left (by omega)])
      rw [List.length_take] at same
      omega
  | extended suffix more =>
      intro again
      have length := frame_length fits
      rw [headerSize] at length
      have same := frame_length_eq fits again (by rw [List.take_append_of_le_length (by omega)])
      rw [List.length_append] at same
      exact more (List.eq_nil_of_length_eq_zero (by omega))

/-- Of a frame that was damaged no payload is read, whatever is asked of the payload. -/
theorem decode_damaged {α : Type} {payload framed changed : List UInt8}
    (fits : frame payload = .ok framed) (damaged : Damaged framed changed) (reader : Codec α)
    (record : String) : ∃ fault, decode reader changed record = .error (.corrupt record fault) := by
  cases found : unframe changed with
  | ok other => exact absurd (frame_of_unframe found) (not_frame_damaged fits damaged)
  | error fault =>
      refine ⟨fault, ?_⟩
      rw [decode, found]
      rfl

/-- A record is the length of what is written, its checksum and what is written, and so it is
unframed. Any other byte in one place, any cut and any addition is reported by whoever reads the
record, and nothing is read of it. -/
theorem damage_is_found {α : Type} (codec : Codec α) (value : α) (record : List UInt8)
    (encoded : encode codec value = .ok record) :
    (record = littleEndian 4 (codec.write value).length ++
        (littleEndian 4 (Checksum.isoHdlc (codec.write value)).toNat ++ codec.write value) ∧
      unframe record = .ok (codec.write value)) ∧
    ∀ changed, Damaged record changed → ∀ (β : Type) (reader : Codec β) (name : String),
      ∃ fault, decode reader changed name = .error (.corrupt name fault) := by
  refine ⟨⟨?_, (unframe_frame encoded).1⟩, ?_⟩
  · rw [← Checksum.crc32_isoHdlc]
    exact (frame_eq encoded).2
  · intro changed damaged β reader name
    exact decode_damaged encoded damaged reader name

/-- The value that is true: the number of its type, and one byte. -/
def truthRecord : List UInt8 := [5, 0, 0, 0, 251, 72, 197, 121, 5, 0, 0, 0, 1]

theorem truth_damage_is_found : encode value (.boolean true) = .ok truthRecord ∧
    (∃ fault, decode value (truthRecord.set 12 0) "truth" = .error (.corrupt "truth" fault)) ∧
    (∃ fault, decode value (truthRecord.take 12) "truth" = .error (.corrupt "truth" fault)) ∧
    ∃ fault, decode value (truthRecord ++ [0]) "truth" = .error (.corrupt "truth" fault) := by
  have encoded : encode value (.boolean true) = .ok truthRecord := by decide +kernel
  have found := (damage_is_found value (.boolean true) truthRecord encoded).2
  exact ⟨encoded, found _ (.altered 12 0 (by decide) (by decide)) Value value "truth",
    found _ (.cut 12 (by decide)) Value value "truth",
    found _ (.extended [0] (by decide)) Value value "truth"⟩

end BundleStore.Record
