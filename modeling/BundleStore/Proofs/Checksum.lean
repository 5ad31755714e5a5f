import BundleStore.Checksum
import Mathlib.Data.BitVec
import Mathlib.Logic.Function.Iterate

set_option autoImplicit false

/-! The register of the checksum forgets nothing: from what it holds after a byte, and the byte, one
can tell what it held before, and from what it held before and after, the byte. So two inputs that
differ in one byte have different checksums. Read backwards, the register divides the bits of the
input by the polynomial 04C11DB7. -/

namespace BundleStore.Checksum

/-! ### One step on the bits of the register -/

def shiftBits (bits : BitVec 32) : BitVec 32 :=
  if bits.getLsbD 0 then (bits >>> 1) ^^^ polynomial.toBitVec else bits >>> 1

theorem and_one_eq_one (register : UInt32) :
    register &&& 1 = 1 ↔ register.toBitVec.getLsbD 0 = true := by
  rw [← UInt32.toBitVec_inj, UInt32.toBitVec_and]
  change register.toBitVec &&& 1#32 = 1#32 ↔ _
  rw [BitVec.and_one_eq_setWidth_ofBool_getLsbD]
  cases register.toBitVec.getLsbD 0 <;> decide

theorem toBitVec_shiftBit (register : UInt32) :
    (shiftBit register).toBitVec = shiftBits register.toBitVec := by
  unfold shiftBit shiftBits
  by_cases odd : register.toBitVec.getLsbD 0 = true
  · rw [if_pos ((and_one_eq_one register).mpr odd), if_pos odd]
    rfl
  · rw [if_neg (fun one => odd ((and_one_eq_one register).mp one)), if_neg odd]
    rfl

theorem toBitVec_absorb (register : UInt32) (byte : UInt8) :
    (absorb register byte).toBitVec
      = shiftBits^[8] (register.toBitVec ^^^ byte.toBitVec.setWidth 32) := by
  simp only [absorb, toBitVec_shiftBit, UInt32.toBitVec_xor, UInt8.toBitVec_toUInt32]
  rfl

/-! ### The register forgets nothing -/

/-- The lowest bit comes back as the highest one, since the polynomial has it and a shifted register
has not. -/
theorem shiftBits_top (bits : BitVec 32) : (shiftBits bits).getLsbD 31 = bits.getLsbD 0 := by
  unfold shiftBits
  split
  · rename_i odd
    rw [odd, BitVec.getLsbD_xor, BitVec.getLsbD_ushiftRight, BitVec.getLsbD_of_ge _ _ (by decide)]
    decide
  · rename_i even
    rw [BitVec.getLsbD_ushiftRight, BitVec.getLsbD_of_ge _ _ (by decide)]
    exact (Bool.eq_false_iff.mpr even).symm

theorem shiftBits_injective : Function.Injective shiftBits := by
  intro left right same
  have lowest : left.getLsbD 0 = right.getLsbD 0 := by
    rw [← shiftBits_top, ← shiftBits_top, same]
  have shifted : left >>> 1 = right >>> 1 := by
    unfold shiftBits at same
    rw [lowest] at same
    split at same
    · exact (BitVec.xor_left_inj _).mp same
    · exact same
  apply BitVec.eq_of_getLsbD_eq
  intro place _small
  cases place with
  | zero => exact lowest
  | succ place =>
      have bit := congrArg (fun bits => bits.getLsbD place) shifted
      simpa [BitVec.getLsbD_ushiftRight, Nat.add_comm] using bit

theorem absorbed {left right : UInt32} {byte other : UInt8}
    (same : absorb left byte = absorb right other) :
    left.toBitVec ^^^ byte.toBitVec.setWidth 32 = right.toBitVec ^^^ other.toBitVec.setWidth 32 := by
  apply shiftBits_injective.iterate 8
  rw [← toBitVec_absorb, ← toBitVec_absorb, same]

theorem absorb_register {left right : UInt32} {byte : UInt8}
    (same : absorb left byte = absorb right byte) : left = right :=
  UInt32.toBitVec_inj.mp ((BitVec.xor_left_inj _).mp (absorbed same))

theorem absorb_byte {register : UInt32} {left right : UInt8}
    (same : absorb register left = absorb register right) : left = right := by
  have words := congrArg (BitVec.setWidth 8) ((BitVec.xor_right_inj _).mp (absorbed same))
  simpa [UInt8.toBitVec_inj] using words

theorem run_register {left right : UInt32} (bytes : List UInt8)
    (same : run left bytes = run right bytes) : left = right := by
  induction bytes generalizing left right with
  | nil => exact same
  | cons byte rest ih => exact absorb_register (ih same)

/-- Another byte in one place gives another checksum, whatever comes before it and after it. -/
theorem crc32_set_ne {bytes : List UInt8} {place : Nat} {byte : UInt8} (inside : place < bytes.length)
    (differs : bytes[place] ≠ byte) : crc32 (bytes.set place byte) ≠ crc32 bytes := by
  intro same
  apply differs
  have split : bytes = bytes.take place ++ bytes[place] :: bytes.drop (place + 1) := by
    rw [List.getElem_cons_drop, List.take_append_drop]
  have changed : bytes.set place byte = bytes.take place ++ byte :: bytes.drop (place + 1) :=
    List.set_eq_take_append_cons_drop .. |>.trans (if_pos inside)
  have registers : run 0xFFFFFFFF (bytes.set place byte) = run 0xFFFFFFFF bytes :=
    (UInt32.xor_left_inj _).mp same
  rw [changed] at registers
  conv at registers => rhs; rw [split]
  rw [run_append, run_append] at registers
  exact (absorb_byte (run_register _ registers)).symm

/-! ### The division

The checksum as its parameters define it: width 32, polynomial 04C11DB7, a register that starts with
all bits set, input and output reflected, and the output inverted. -/

/-- The top bit leaves the register, and where it differs from the next bit of the input the
polynomial is taken off. -/
def divideBit (register : BitVec 32) (bit : Bool) : BitVec 32 :=
  (register <<< 1) ^^^ (if register.msb ^^ bit then 0x04C11DB7#32 else 0#32)

def bitsOf (byte : UInt8) : List Bool := (List.range 8).map byte.toBitVec.getLsbD

def remainder (bytes : List UInt8) : BitVec 32 :=
  (bytes.flatMap bitsOf).foldl divideBit (BitVec.allOnes 32)

def isoHdlc (bytes : List UInt8) : BitVec 32 := (remainder bytes).reverse ^^^ BitVec.allOnes 32

/-- The step that takes one bit of the input. -/
def feed (register : BitVec 32) (bit : Bool) : BitVec 32 :=
  shiftBits (register ^^^ (BitVec.ofBool bit).setWidth 32)

/-- Of a value in the register only the lowest bit decides about the polynomial. -/
theorem shiftBits_xor (register value : BitVec 32) :
    shiftBits (register ^^^ value) = feed register (value.getLsbD 0) ^^^ (value >>> 1) := by
  have lowest : (register ^^^ value).getLsbD 0
      = (register ^^^ (BitVec.ofBool (value.getLsbD 0)).setWidth 32).getLsbD 0 := by
    simp
  have shifted : (BitVec.ofBool (value.getLsbD 0)).setWidth 32 >>> 1 = 0#32 := by
    cases value.getLsbD 0 <;> decide
  unfold feed shiftBits
  rw [lowest, BitVec.ushiftRight_xor_distrib, BitVec.ushiftRight_xor_distrib, shifted]
  split
  · rw [BitVec.xor_zero, BitVec.xor_assoc, BitVec.xor_comm (value >>> 1), ← BitVec.xor_assoc]
  · rw [BitVec.xor_zero]

theorem iterate_shiftBits (count : Nat) (register value : BitVec 32) (small : value >>> count = 0#32) :
    shiftBits^[count] (register ^^^ value)
      = ((List.range count).map value.getLsbD).foldl feed register := by
  induction count generalizing register value with
  | zero =>
      rw [BitVec.ushiftRight_zero] at small
      rw [small]
      exact BitVec.xor_zero
  | succ count ih =>
      have rest : (value >>> 1) >>> count = 0#32 := by
        rw [← BitVec.shiftRight_add, Nat.add_comm, small]
      have bits : value.getLsbD ∘ Nat.succ = (value >>> 1).getLsbD := by
        funext place
        simp [BitVec.getLsbD_ushiftRight, Nat.add_comm]
      rw [Function.iterate_succ_apply, shiftBits_xor, ih _ _ rest, List.range_succ_eq_map, List.map_cons,
        List.map_map, bits, List.foldl_cons]

theorem absorb_eq_feed (register : UInt32) (byte : UInt8) :
    (absorb register byte).toBitVec = (bitsOf byte).foldl feed register.toBitVec := by
  have small : byte.toBitVec.setWidth 32 >>> 8 = 0#32 := by
    apply BitVec.eq_of_getLsbD_eq
    intro place _inside
    rw [BitVec.getLsbD_ushiftRight, BitVec.getLsbD_setWidth, BitVec.getLsbD_of_ge _ _ (by omega)]
    simp
  rw [toBitVec_absorb, iterate_shiftBits 8 _ _ small]
  rfl

theorem reverse_xor (left right : BitVec 32) :
    (left ^^^ right).reverse = left.reverse ^^^ right.reverse := by
  apply BitVec.eq_of_getLsbD_eq
  intro place _inside
  simp only [BitVec.getLsbD_reverse, BitVec.getLsbD_xor, BitVec.getMsbD_xor]

theorem reverse_shiftRight (bits : BitVec 32) : (bits >>> 1).reverse = bits.reverse <<< 1 := by
  apply BitVec.eq_of_getLsbD_eq
  intro place inside
  rw [BitVec.getLsbD_reverse, BitVec.getMsbD_ushiftRight, BitVec.getLsbD_shiftLeft,
    BitVec.getLsbD_reverse, Bool.and_assoc]

theorem reverse_shiftBits (bits : BitVec 32) :
    (shiftBits bits).reverse
      = (bits.reverse <<< 1) ^^^ (if bits.reverse.msb then 0x04C11DB7#32 else 0#32) := by
  have reflected : polynomial.toBitVec.reverse = 0x04C11DB7#32 := by decide +kernel
  rw [BitVec.msb_reverse]
  unfold shiftBits
  split
  · rw [reverse_xor, reverse_shiftRight, reflected]
  · rw [reverse_shiftRight, BitVec.xor_zero]

theorem reverse_feed (register : BitVec 32) (bit : Bool) :
    (feed register bit).reverse = divideBit register.reverse bit := by
  have shifted : ((BitVec.ofBool bit).setWidth 32).reverse <<< 1 = 0#32 := by cases bit <;> decide +kernel
  have top : ((BitVec.ofBool bit).setWidth 32).reverse.msb = bit := by cases bit <;> decide +kernel
  unfold feed divideBit
  rw [reverse_shiftBits, reverse_xor, BitVec.shiftLeft_xor_distrib, shifted, BitVec.xor_zero,
    BitVec.msb_xor, top]

theorem reverse_run (register : UInt32) (bytes : List UInt8) :
    (run register bytes).toBitVec.reverse
      = (bytes.flatMap bitsOf).foldl divideBit register.toBitVec.reverse := by
  induction bytes generalizing register with
  | nil => rfl
  | cons byte rest ih =>
      have step : (absorb register byte).toBitVec.reverse
          = (bitsOf byte).foldl divideBit register.toBitVec.reverse := by
        rw [absorb_eq_feed]
        exact (List.foldl_hom BitVec.reverse (fun state bit => (reverse_feed state bit).symm)).symm
      rw [List.flatMap_cons, List.foldl_append, ← step, ← ih]
      rfl

theorem crc32_isoHdlc (bytes : List UInt8) : (crc32 bytes).toBitVec = isoHdlc bytes := by
  have start : (0xFFFFFFFF : UInt32).toBitVec = BitVec.allOnes 32 := by decide
  have ones : (BitVec.allOnes 32).reverse = BitVec.allOnes 32 := by decide +kernel
  have whole := reverse_run 0xFFFFFFFF bytes
  rw [start, ones] at whole
  unfold crc32 isoHdlc remainder
  rw [UInt32.toBitVec_xor, start, ← whole, BitVec.reverse_reverse_eq]

end BundleStore.Checksum
