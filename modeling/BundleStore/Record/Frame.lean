import BundleStore.Checksum
import BundleStore.Error
import BundleStore.Record.Codec

set_option autoImplicit false

/-! The frame of a record: the length of the payload and its checksum, four bytes each, and the
payload. Every fault of a frame is found before the payload is read; what the payload holds
after the value is passed over. -/

namespace BundleStore.Record

def headerSize : Nat := 8

/-- A length must fit into four bytes. -/
def lengthLimit : Nat := 0x100000000

def frame (payload : List UInt8) : Except StorageError (List UInt8) :=
  if payload.length < lengthLimit then
    .ok (littleEndian 4 payload.length ++
      (littleEndian 4 (Checksum.crc32 payload).toNat ++ payload))
  else .error (.recordTooLarge payload.length)

def unframe (bytes : List UInt8) : Except RecordFault (List UInt8) :=
  if bytes.length < headerSize then .error (.shortHeader bytes.length)
  else
    let declared := ofLittleEndian (bytes.take 4)
    let checksum := UInt32.ofNat (ofLittleEndian ((bytes.drop 4).take 4))
    let payload := bytes.drop headerSize
    if payload.length ≠ declared then .error (.wrongLength declared payload.length)
    else
      let found := Checksum.crc32 payload
      if found ≠ checksum then .error (.wrongChecksum checksum found) else .ok payload

def encode {α : Type} (codec : Codec α) (value : α) : Except StorageError (List UInt8) :=
  frame (codec.write value)

def readPayload {α : Type} (codec : Codec α) (payload : List UInt8) : Except RecordFault α :=
  match codec.read payload with
  | some (value, _) => .ok value
  | none => .error .payload

/-- The name of the record goes into the error. -/
def decode {α : Type} (codec : Codec α) (bytes : List UInt8) (record : String) :
    Except StorageError α :=
  ((unframe bytes).bind (readPayload codec)).mapError (StorageError.corrupt record)

end BundleStore.Record
