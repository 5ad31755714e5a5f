import BundleStore.Text.Hex

set_option autoImplicit false

/-! Node identifiers: sixteen bytes. The canonical text groups their hexadecimal digits by
hyphens; reading also takes the bare digits, the canonical text between braces, and the URN
form, in either letter case. -/

namespace BundleStore

structure NodeId where
  bytes : List UInt8
  sixteen : bytes.length = 16
deriving DecidableEq

namespace NodeId

instance : Ord NodeId := ⟨compareOn bytes⟩

instance : Std.TransOrd NodeId := inferInstanceAs (Std.TransCmp (compareOn bytes))

instance : Std.LawfulEqOrd NodeId where
  eq_of_compare {left right} same := by
    have equal : left.bytes = right.bytes := Std.LawfulEqCmp.compare_eq_iff_eq.mp same
    cases left
    cases right
    cases equal
    rfl

def zero : NodeId := ⟨List.replicate 16 0, by simp⟩

instance : Inhabited NodeId := ⟨zero⟩

def ofBytes? (bytes : List UInt8) : Option NodeId :=
  if sixteen : bytes.length = 16 then some ⟨bytes, sixteen⟩ else none

/-- The thirty-two digits, without separators. -/
def digits (id : NodeId) : List Char := Text.Hex.digits id.bytes

def chars (id : NodeId) : List Char :=
  id.digits.take 8 ++ '-' :: (id.digits.drop 8).take 4 ++ '-' :: (id.digits.drop 12).take 4 ++
    '-' :: (id.digits.drop 16).take 4 ++ '-' :: id.digits.drop 20

def text (id : NodeId) : String := String.ofList id.chars

def ofDigits? (digits : List Char) : Option NodeId := do
  ofBytes? (← Text.Hex.toBytes? digits)

def hyphenPlaces : List Nat := [8, 13, 18, 23]

def ofGroups? (chars : List Char) : Option NodeId :=
  if chars.length = 36 ∧ hyphenPlaces.all (fun place => chars[place]? = some '-') then
    ofDigits? (chars.take 8 ++ (chars.drop 9).take 4 ++ (chars.drop 14).take 4 ++
      (chars.drop 19).take 4 ++ chars.drop 24)
  else none

def urnStart : List Char := ['u', 'r', 'n', ':', 'u', 'u', 'i', 'd', ':']

def ofChars? (chars : List Char) : Option NodeId :=
  match chars.length with
  | 32 => ofDigits? chars
  | 36 => ofGroups? chars
  | 38 =>
      if chars.head? = some '\x7b' ∧ chars.getLast? = some '\x7d' then
        ofGroups? (chars.drop 1).dropLast
      else none
  | 45 =>
      if (chars.take 9).map Char.toLower = urnStart then ofGroups? (chars.drop 9) else none
  | _ => none

def ofText? (text : String) : Option NodeId := ofChars? text.toList

/-- Draws that many bytes from a source of random numbers. -/
def draw {γ : Type} [RandomGen γ] : Nat → γ → List UInt8 × γ
  | 0, source => ([], source)
  | count + 1, source =>
      let (number, source) := RandomGen.next source
      let (rest, source) := draw count source
      (UInt8.ofNat (number / 256) :: rest, source)

/-- The seventh byte names the fourth version, the ninth the variant. -/
def markByte (byte : UInt8) (place : Nat) : UInt8 :=
  if place = 6 then (byte &&& 0x0F) ||| 0x40
  else if place = 8 then (byte &&& 0x3F) ||| 0x80
  else byte

theorem length_draw {γ : Type} [RandomGen γ] (count : Nat) (source : γ) :
    (draw count source).1.length = count := by
  induction count generalizing source with
  | zero => rfl
  | succ count ih => exact congrArg (· + 1) (ih (RandomGen.next source).2)

/-- An identifier for a new node. -/
def random {γ : Type} [RandomGen γ] (source : γ) : NodeId × γ :=
  (⟨(draw 16 source).1.mapIdx (fun place byte => markByte byte place), by
    rw [List.length_mapIdx, length_draw]⟩, (draw 16 source).2)

theorem length_digits (id : NodeId) : id.digits.length = 32 := by
  rw [digits, Text.Hex.length_digits, id.sixteen]

theorem ofDigits?_digits (id : NodeId) : ofDigits? id.digits = some id := by
  simp [ofDigits?, digits, Text.Hex.toBytes?_digits, ofBytes?, id.sixteen]

end NodeId

end BundleStore
