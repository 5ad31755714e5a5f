set_option autoImplicit false

/-! Writing values as bytes and reading them back. A codec pairs the two directions; its reader
returns what follows the value. Numbers are little-endian and of fixed width, a sequence is
preceded by its length in eight bytes, and a choice by the number of its alternative in four. -/

namespace BundleStore.Record

structure Codec (α : Type) where
  write : α → List UInt8
  read : List UInt8 → Option (α × List UInt8)

/-- What is written is read back, whatever follows it. Lengths are written in eight bytes, so the
law is for values whose bytes can be counted in them. -/
def Codec.Lawful {α : Type} (codec : Codec α) : Prop :=
  ∀ value rest, (codec.write value).length < 0x10000000000000000 →
    codec.read (codec.write value ++ rest) = some (value, rest)

def littleEndian : Nat → Nat → List UInt8
  | 0, _ => []
  | width + 1, value => UInt8.ofNat value :: littleEndian width (value / 256)

def ofLittleEndian : List UInt8 → Nat
  | [] => 0
  | byte :: rest => byte.toNat + 256 * ofLittleEndian rest

def takeBytes (count : Nat) (input : List UInt8) : Option (List UInt8 × List UInt8) :=
  let (taken, rest) := input.splitAt count
  if taken.length = count then some (taken, rest) else none

def readNumber (width : Nat) (input : List UInt8) : Option (Nat × List UInt8) := do
  let (bytes, rest) ← takeBytes width input
  return (ofLittleEndian bytes, rest)

namespace Codec

variable {α β : Type}

/-- Reads as the first codec does, then maps the value; the map may refuse it. -/
def refine (codec : Codec α) (write : β → α) (read : α → Option β) : Codec β where
  write value := codec.write (write value)
  read input := do
    let (value, rest) ← codec.read input
    return (← read value, rest)

def number (width : Nat) : Codec Nat where
  write value := littleEndian width value
  read input := readNumber width input

def word16 : Codec UInt16 := (number 2).refine UInt16.toNat (fun value => some (UInt16.ofNat value))
def word32 : Codec UInt32 := (number 4).refine UInt32.toNat (fun value => some (UInt32.ofNat value))
def word64 : Codec UInt64 := (number 8).refine UInt64.toNat (fun value => some (UInt64.ofNat value))
def signed64 : Codec Int64 := word64.refine Int64.toUInt64 (fun word => some word.toInt64)

def boolean : Codec Bool :=
  (number 1).refine Bool.toNat (fun value =>
    if value = 0 then some false else if value = 1 then some true else none)

/-- The number of an alternative in a list of all of them. -/
def choice [BEq α] (alternatives : List α) : Codec α :=
  (number 4).refine (fun value => alternatives.idxOf value) (fun number => alternatives[number]?)

def pair (first : Codec α) (second : Codec β) : Codec (α × β) where
  write value := first.write value.1 ++ second.write value.2
  read input := do
    let (left, rest) ← first.read input
    let (right, rest) ← second.read rest
    return ((left, right), rest)

def bytes : Codec (List UInt8) where
  write value := littleEndian 8 value.length ++ value
  read input := do
    let (length, rest) ← readNumber 8 input
    takeBytes length rest

def text : Codec String :=
  bytes.refine (fun value => value.toUTF8.data.toList) (fun bytes =>
    String.fromUTF8? ⟨bytes.toArray⟩)

def optional (codec : Codec α) : Codec (Option α) where
  write
    | none => [0]
    | some value => 1 :: codec.write value
  read
    | 0 :: rest => some (none, rest)
    | 1 :: rest => (codec.read rest).map (fun (value, rest) => (some value, rest))
    | _ => none

def readMany (read : List UInt8 → Option (α × List UInt8)) :
    Nat → List UInt8 → Option (List α × List UInt8)
  | 0, input => some ([], input)
  | count + 1, input => do
      let (value, rest) ← read input
      let (values, rest) ← readMany read count rest
      return (value :: values, rest)

def list (codec : Codec α) : Codec (List α) where
  write values := littleEndian 8 values.length ++ values.flatMap codec.write
  read input := do
    let (count, rest) ← readNumber 8 input
    readMany codec.read count rest

end Codec

end BundleStore.Record
