import BundleStore.Record.Codec
import Mathlib.Algebra.Group.Nat.Defs

set_option autoImplicit false

/-! What is written is read back, for each way of making codecs. Readers are given more input than
the value takes, and have to leave the rest as it is. -/

namespace BundleStore.Record

/-! ### Numbers -/

@[simp]
theorem length_littleEndian (width value : Nat) : (littleEndian width value).length = width := by
  induction width generalizing value with
  | zero => rfl
  | succ width ih => rw [littleEndian, List.length_cons, ih]

theorem ofLittleEndian_littleEndian (width value : Nat) (fits : value < 256 ^ width) :
    ofLittleEndian (littleEndian width value) = value := by
  induction width generalizing value with
  | zero =>
      have zero : value = 0 := by simpa using fits
      rw [zero]
      rfl
  | succ width ih =>
      have smaller : value / 256 < 256 ^ width := by
        rw [Nat.div_lt_iff_lt_mul (by decide)]
        exact fits
      rw [littleEndian, ofLittleEndian, ih _ smaller, UInt8.toNat_ofNat']
      omega

theorem takeBytes_append {count : Nat} {bytes : List UInt8} (sized : bytes.length = count)
    (rest : List UInt8) : takeBytes count (bytes ++ rest) = some (bytes, rest) := by
  rw [← sized, takeBytes, List.splitAt_eq, List.take_left, List.drop_left]
  exact if_pos rfl

theorem readNumber_littleEndian {width value : Nat} (fits : value < 256 ^ width)
    (rest : List UInt8) :
    readNumber width (littleEndian width value ++ rest) = some (value, rest) := by
  rw [readNumber, takeBytes_append (length_littleEndian width value)]
  exact congrArg (fun number => some (number, rest)) (ofLittleEndian_littleEndian width value fits)

namespace Codec

variable {α β : Type}

/-- What is written for the first value is read as the second one. -/
def Yields (codec : Codec α) (value found : α) : Prop :=
  (codec.write value).length < 0x10000000000000000 →
    ∀ rest, codec.read (codec.write value ++ rest) = some (found, rest)

theorem Lawful.yields {codec : Codec α} (lawful : codec.Lawful) (value : α) :
    codec.Yields value value := fun short rest => lawful value rest short

theorem lawful_of_yields {codec : Codec α} (yields : ∀ value, codec.Yields value value) :
    codec.Lawful := fun value rest short => yields value short rest

theorem number_yields {width value : Nat} (fits : value < 256 ^ width) :
    (number width).Yields value value := fun _short rest => readNumber_littleEndian fits rest

theorem Yields.refine {codec : Codec α} {write : β → α} {read : α → Option β} {value : β} {raw : α}
    {found : β} (yields : codec.Yields (write value) raw) (reads : read raw = some found) :
    (codec.refine write read).Yields value found := by
  intro short rest
  change ((codec.read (codec.write (write value) ++ rest)).bind fun before =>
    (read before.1).bind fun value => some (value, before.2)) = _
  rw [yields short rest, Option.bind_some, reads]
  rfl

theorem Lawful.refine {codec : Codec α} (lawful : codec.Lawful) {write : β → α}
    {read : α → Option β} (back : ∀ value, read (write value) = some value) :
    (codec.refine write read).Lawful :=
  lawful_of_yields (fun value => (lawful.yields (write value)).refine (back value))

theorem word16_lawful : word16.Lawful :=
  lawful_of_yields (fun value =>
    Yields.refine (number_yields value.toNat_lt) (congrArg some UInt16.ofNat_toNat))

theorem word32_lawful : word32.Lawful :=
  lawful_of_yields (fun value =>
    Yields.refine (number_yields value.toNat_lt) (congrArg some UInt32.ofNat_toNat))

theorem word64_lawful : word64.Lawful :=
  lawful_of_yields (fun value =>
    Yields.refine (number_yields value.toNat_lt) (congrArg some UInt64.ofNat_toNat))

theorem signed64_lawful : signed64.Lawful :=
  word64_lawful.refine (fun value => congrArg some (Int64.toInt64_toUInt64 value))

theorem boolean_lawful : boolean.Lawful := by
  refine lawful_of_yields (fun value => Yields.refine (number_yields ?_) ?_) <;>
    cases value <;> decide

/-- A choice is read back if it is among the alternatives, and they can be numbered. -/
theorem choice_lawful [BEq α] [LawfulBEq α] {alternatives : List α}
    (all : ∀ value, value ∈ alternatives) (few : alternatives.length ≤ 256 ^ 4) :
    (choice alternatives).Lawful := by
  apply lawful_of_yields
  intro value
  have placed := List.idxOf_lt_length_of_mem (all value)
  apply Yields.refine (number_yields (by omega))
  rw [List.getElem?_eq_getElem placed, List.getElem_idxOf]

/-! ### Pairs, sequences and the rest -/

theorem Yields.pair {first : Codec α} {second : Codec β} {left leftFound : α}
    {right rightFound : β} (early : first.Yields left leftFound)
    (late : second.Yields right rightFound) :
    (first.pair second).Yields (left, right) (leftFound, rightFound) := by
  intro short rest
  change (first.write left ++ second.write right).length < _ at short
  rw [List.length_append] at short
  change ((first.read ((first.write left ++ second.write right) ++ rest)).bind fun found =>
    (second.read found.2).bind fun other => some ((found.1, other.1), other.2)) = _
  rw [List.append_assoc, early (by omega) (second.write right ++ rest), Option.bind_some,
    late (by omega) rest]
  rfl

theorem Lawful.pair {first : Codec α} {second : Codec β} (early : first.Lawful)
    (late : second.Lawful) : (first.pair second).Lawful :=
  lawful_of_yields (fun (left, right) => (early.yields left).pair (late.yields right))

theorem bytes_lawful : bytes.Lawful := by
  intro value rest short
  change (littleEndian 8 value.length ++ value).length < _ at short
  rw [List.length_append, length_littleEndian] at short
  change ((readNumber 8 ((littleEndian 8 value.length ++ value) ++ rest)).bind fun counted =>
    takeBytes counted.1 counted.2) = _
  rw [List.append_assoc, readNumber_littleEndian (by omega)]
  exact takeBytes_append rfl rest

theorem text_lawful : text.Lawful := by
  apply bytes_lawful.refine
  intro value
  change String.fromUTF8? value.toByteArray = some value
  rw [String.fromUTF8?, dif_pos value.isValidUTF8]
  rfl

theorem Lawful.optional {codec : Codec α} (lawful : codec.Lawful) : codec.optional.Lawful := by
  intro value rest short
  cases value with
  | none => rfl
  | some value =>
      change (codec.read (codec.write value ++ rest)).map _ = _
      change (codec.write value).length + 1 < _ at short
      rw [lawful value rest (by omega)]
      rfl

theorem readMany_flatMap {codec : Codec α} (lawful : codec.Lawful) (values : List α)
    (rest : List UInt8) (short : (values.flatMap codec.write).length < 0x10000000000000000) :
    readMany codec.read values.length (values.flatMap codec.write ++ rest) =
      some (values, rest) := by
  induction values with
  | nil => rfl
  | cons value others ih =>
      rw [List.flatMap_cons, List.length_append] at short
      rw [List.length_cons, readMany, List.flatMap_cons, List.append_assoc,
        lawful value _ (by omega)]
      change ((readMany codec.read others.length (others.flatMap codec.write ++ rest)).bind
        fun later => some (value :: later.1, later.2)) = _
      rw [ih (by omega)]
      rfl

/-- The length of a sequence must fit into eight bytes, so each value has to take some. -/
theorem Lawful.list {codec : Codec α} (lawful : codec.Lawful)
    (some : ∀ value, 0 < (codec.write value).length) : codec.list.Lawful := by
  intro values rest short
  change (littleEndian 8 values.length ++ values.flatMap codec.write).length < _ at short
  rw [List.length_append, length_littleEndian] at short
  have counted : values.length ≤ (values.flatMap codec.write).length := by
    clear short
    induction values with
    | nil => exact Nat.le_refl 0
    | cons value others ih =>
        have one := some value
        rw [List.flatMap_cons, List.length_append, List.length_cons]
        omega
  change ((readNumber 8 ((littleEndian 8 values.length ++ values.flatMap codec.write) ++ rest)).bind
    fun counted => readMany codec.read counted.1 counted.2) = _
  rw [List.append_assoc, readNumber_littleEndian (by omega)]
  exact readMany_flatMap lawful values rest (by omega)

end Codec

end BundleStore.Record
