set_option autoImplicit false

/-! CRC-32 with the reflected polynomial EDB88320. The register takes the input a byte at a time,
least significant bit first; it starts with all bits set and is inverted at the end. -/

namespace BundleStore.Checksum

def polynomial : UInt32 := 0xEDB88320

def shiftBit (register : UInt32) : UInt32 :=
  if register &&& 1 = 1 then (register >>> 1) ^^^ polynomial else register >>> 1

def absorb (register : UInt32) (byte : UInt8) : UInt32 :=
  shiftBit (shiftBit (shiftBit (shiftBit (shiftBit (shiftBit (shiftBit (shiftBit
    (register ^^^ byte.toUInt32))))))))

def run (register : UInt32) (bytes : List UInt8) : UInt32 := bytes.foldl absorb register

def crc32 (bytes : List UInt8) : UInt32 := run 0xFFFFFFFF bytes ^^^ 0xFFFFFFFF

-- The check value of the checksum's definition: the digits one to nine.
example : crc32 [0x31, 0x32, 0x33, 0x34, 0x35, 0x36, 0x37, 0x38, 0x39] = 0xCBF43926 := by
  decide +kernel

theorem run_append (register : UInt32) (first second : List UInt8) :
    run register (first ++ second) = run (run register first) second :=
  List.foldl_append

end BundleStore.Checksum
