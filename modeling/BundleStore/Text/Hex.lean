set_option autoImplicit false

/-! Bytes written as pairs of hexadecimal digits. Writing uses small letters; reading takes
either case, and gives back what was written. -/

namespace BundleStore.Text.Hex

def digitValue? (char : Char) : Option Nat :=
  if '0' ≤ char ∧ char ≤ '9' then some (char.toNat - '0'.toNat)
  else if 'a' ≤ char ∧ char ≤ 'f' then some (char.toNat - 'a'.toNat + 10)
  else if 'A' ≤ char ∧ char ≤ 'F' then some (char.toNat - 'A'.toNat + 10)
  else none

def ofByte (byte : UInt8) : List Char :=
  [Nat.digitChar (byte.toNat / 16), Nat.digitChar (byte.toNat % 16)]

def digits (bytes : List UInt8) : List Char := bytes.flatMap ofByte

def toBytes? : List Char → Option (List UInt8)
  | [] => some []
  | [_] => none
  | high :: low :: rest => do
      let upper ← digitValue? high
      let lower ← digitValue? low
      let bytes ← toBytes? rest
      return UInt8.ofNat (16 * upper + lower) :: bytes

def text (bytes : List UInt8) : String := String.ofList (digits bytes)

/-- Eight digits, the most significant first. -/
def word (value : UInt32) : String :=
  text [(value >>> 24).toUInt8, (value >>> 16).toUInt8, (value >>> 8).toUInt8, value.toUInt8]

theorem digitValue?_digitChar {value : Nat} (small : value < 16) :
    digitValue? (Nat.digitChar value) = some value := by
  have all : ∀ index : Fin 16, digitValue? (Nat.digitChar index.val) = some index.val := by decide
  exact all ⟨value, small⟩

theorem toBytes?_digits (bytes : List UInt8) : toBytes? (digits bytes) = some bytes := by
  induction bytes with
  | nil => rfl
  | cons byte rest ih =>
      have bound : byte.toNat < 256 := byte.toNat_lt
      have upper : digitValue? (Nat.digitChar (byte.toNat / 16)) = some (byte.toNat / 16) :=
        digitValue?_digitChar (by omega)
      have lower : digitValue? (Nat.digitChar (byte.toNat % 16)) = some (byte.toNat % 16) :=
        digitValue?_digitChar (by omega)
      have whole : 16 * (byte.toNat / 16) + byte.toNat % 16 = byte.toNat := by omega
      change toBytes? (Nat.digitChar (byte.toNat / 16) :: Nat.digitChar (byte.toNat % 16) ::
        digits rest) = some (byte :: rest)
      rw [toBytes?, upper, lower, ih]
      change some (UInt8.ofNat (16 * (byte.toNat / 16) + byte.toNat % 16) :: rest) = _
      rw [whole, UInt8.ofNat_toNat]

theorem length_digits (bytes : List UInt8) : (digits bytes).length = 2 * bytes.length := by
  induction bytes with
  | nil => rfl
  | cons byte rest ih =>
      change (digits rest).length + 2 = 2 * (rest.length + 1)
      omega

end BundleStore.Text.Hex
