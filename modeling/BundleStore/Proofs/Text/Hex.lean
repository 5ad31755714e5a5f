import BundleStore.Text.Hex
import Mathlib.Data.List.TakeDrop

set_option autoImplicit false

namespace BundleStore.Text.Hex

/-- The digits that are written. -/
def smallDigits : List Char := "0123456789abcdef".toList

theorem digitChar_mem_smallDigits {value : Nat} (small : value < 16) :
    Nat.digitChar value ∈ smallDigits := by
  have all : ∀ index : Fin 16, Nat.digitChar index.val ∈ smallDigits := by decide
  exact all ⟨value, small⟩

theorem mem_smallDigits {bytes : List UInt8} {char : Char} (digit : char ∈ digits bytes) :
    char ∈ smallDigits := by
  obtain ⟨byte, _member, either⟩ := List.mem_flatMap.mp digit
  have bound : byte.toNat < 256 := byte.toNat_lt
  rcases List.mem_cons.mp either with rfl | last
  · exact digitChar_mem_smallDigits (by omega)
  · rw [List.mem_singleton.mp last]
    exact digitChar_mem_smallDigits (by omega)

theorem alphanum_of_mem_smallDigits {char : Char} (digit : char ∈ smallDigits) :
    char.isAlphanum = true := by
  have all : smallDigits.all Char.isAlphanum = true := by decide
  exact List.all_eq_true.mp all char digit

theorem toLower_of_mem_smallDigits {char : Char} (digit : char ∈ smallDigits) :
    char.toLower = char := by
  have all : smallDigits.all (fun char => char.toLower == char) = true := by decide
  exact beq_iff_eq.mp (List.all_eq_true.mp all char digit)

/-- What holds of the first characters holds of all that are read or made small. -/
theorem ascii_cases {motive : Char → Prop} (all : ∀ code : Fin 128, motive (Char.ofNat code.val))
    {char : Char} (beyond : 128 ≤ char.toNat → motive char) : motive char := by
  by_cases first : char.toNat < 128
  · have here := all ⟨char.toNat, first⟩
    rwa [Char.ofNat_toNat] at here
  · exact beyond (Nat.le_of_not_lt first)

theorem toLower_beyond {char : Char} (beyond : 128 ≤ char.toNat) : char.toLower = char := by
  refine dif_neg ?_
  rintro ⟨_, high⟩
  have := UInt32.le_iff_toNat_le.mp high
  change char.toNat ≤ 90 at this
  omega

theorem digitValue?_beyond {char : Char} (beyond : 128 ≤ char.toNat) : digitValue? char = none := by
  have above (last : Char) (within : last.toNat < 128) : ¬ char ≤ last := by
    intro most
    have := UInt32.le_iff_toNat_le.mp most
    change char.toNat ≤ last.toNat at this
    omega
  rw [digitValue?, if_neg (fun both => above _ (by decide) both.2),
    if_neg (fun both => above _ (by decide) both.2), if_neg (fun both => above _ (by decide) both.2)]

/-- A digit is read in either case. -/
theorem digitValue?_toLower (char : Char) : digitValue? char.toLower = digitValue? char := by
  refine ascii_cases (motive := fun char => digitValue? char.toLower = digitValue? char) ?_ ?_
  · decide
  · intro beyond
    rw [toLower_beyond beyond]

theorem digitChar_of_digitValue? {char : Char} {value : Nat}
    (given : digitValue? char = some value) : value < 16 ∧ Nat.digitChar value = char.toLower := by
  refine ascii_cases (motive := fun char => ∀ value, digitValue? char = some value →
    value < 16 ∧ Nat.digitChar value = char.toLower) ?_ ?_ value given
  · decide
  · intro beyond value impossible
    rw [digitValue?_beyond beyond] at impossible
    cases impossible

theorem toBytes?_toLower (chars : List Char) : toBytes? (chars.map Char.toLower) = toBytes? chars := by
  induction chars using toBytes?.induct with
  | case1 => rfl
  | case2 only => rfl
  | case3 high low rest ih =>
      rw [List.map_cons, List.map_cons, toBytes?, toBytes?, digitValue?_toLower,
        digitValue?_toLower, ih]

theorem digits_of_toBytes? {chars : List Char} {bytes : List UInt8}
    (given : toBytes? chars = some bytes) : digits bytes = chars.map Char.toLower := by
  induction chars using toBytes?.induct generalizing bytes with
  | case1 =>
      cases given
      rfl
  | case2 only => cases given
  | case3 high low rest ih =>
      simp only [toBytes?, Option.bind_eq_bind, Option.bind_eq_some_iff, Option.pure_def,
        Option.some.injEq] at given
      obtain ⟨upper, high?, lower, low?, later, rest?, rfl⟩ := given
      obtain ⟨upperSmall, upperChar⟩ := digitChar_of_digitValue? high?
      obtain ⟨lowerSmall, lowerChar⟩ := digitChar_of_digitValue? low?
      have byte : (UInt8.ofNat (16 * upper + lower)).toNat = 16 * upper + lower := by
        rw [UInt8.toNat_ofNat']
        omega
      have first : (16 * upper + lower) / 16 = upper := by omega
      have second : (16 * upper + lower) % 16 = lower := by omega
      rw [digits, List.flatMap_cons, ← digits, ih rest?, ofByte, byte, first, second, upperChar,
        lowerChar]
      rfl

/-- What is read is written again in small letters. -/
theorem toBytes?_eq_some {chars : List Char} {bytes : List UInt8} :
    toBytes? chars = some bytes ↔ chars.map Char.toLower = digits bytes := by
  constructor
  · intro given
    exact (digits_of_toBytes? given).symm
  · intro same
    rw [← toBytes?_toLower, same, toBytes?_digits]

end BundleStore.Text.Hex
