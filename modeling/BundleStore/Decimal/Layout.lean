import BundleStore.Decimal.Shortest

set_option autoImplicit false

/-! How a binary64 number is written. A layout says when powers of ten are spelled out, whether
whole numbers keep a fraction, which way exact ties go, and what stands for the numbers that have
no digits. -/

namespace BundleStore.Decimal

structure Layout where
  tie : Tie
  /-- Exponents of the leading digit that are written by position. -/
  positional : Int → Bool
  wholeSuffix : String
  notANumber : String
  infinite : Bool → String

/-- Never an exponent, and nothing after a whole number. -/
def Layout.plain : Layout :=
  { tie := .up
    positional := fun _ => true
    wholeSuffix := ""
    notANumber := "NaN"
    infinite := fun negative => if negative then "-inf" else "inf" }

/-- A JSON number always shows that it is a fraction; what is not finite is null. -/
def Layout.json : Layout :=
  { tie := .even
    positional := fun leading => -6 < leading && leading < 16
    wholeSuffix := ".0"
    notANumber := "null"
    infinite := fun _ => "null" }

def zeros (count : Nat) : List Char := List.replicate count '0'

def byPosition (layout : Layout) (digits : List Char) (exponent : Int) : List Char :=
  if 0 ≤ exponent then digits ++ zeros exponent.toNat ++ layout.wholeSuffix.toList
  else
    let places := (-exponent).toNat
    if places < digits.length then
      digits.take (digits.length - places) ++ '.' :: digits.drop (digits.length - places)
    else '0' :: '.' :: zeros (places - digits.length) ++ digits

def byExponent (digits : List Char) (leading : Int) : List Char :=
  let mantissa := match digits with
    | [] => []
    | [only] => [only]
    | first :: rest => first :: '.' :: rest
  mantissa ++ 'e' :: (if leading < 0 then '-' else '+') :: Nat.toDigits 10 leading.natAbs

def Scaled.chars (layout : Layout) (scaled : Scaled) : List Char :=
  let digits := Nat.toDigits 10 scaled.coefficient
  let leading := scaled.exponent + digits.length - 1
  if layout.positional leading then byPosition layout digits scaled.exponent
  else byExponent digits leading

def signed (negative : Bool) (text : String) : String := if negative then "-" ++ text else text

def Layout.write (layout : Layout) (bits : UInt64) : String :=
  match Binary64.ofBits bits with
  | .notANumber => layout.notANumber
  | .infinite negative => layout.infinite negative
  | .zero negative => signed negative ("0" ++ layout.wholeSuffix)
  | .finite negative interval =>
      signed negative (String.ofList ((interval.shortest layout.tie).chars layout))

end BundleStore.Decimal
