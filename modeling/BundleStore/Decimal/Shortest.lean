set_option autoImplicit false

/-! The decimal that stands for a binary fraction. A binary64 number is the middle of an interval
of reals that round to it; among the grids of multiples of a power of ten, the coarsest one with
a point in the interval is taken, and on it the point nearest to the number. -/

namespace BundleStore.Decimal

/-- Stands for coefficient · 10 ^ exponent. -/
structure Scaled where
  coefficient : Nat
  exponent : Int
deriving DecidableEq

inductive Tie where
  | up
  | even
deriving DecidableEq

/-- The value and the ends of its rounding interval, as numerators over one denominator. The
ends belong to the interval when `closed` says so. -/
structure Interval where
  lower : Nat
  value : Nat
  upper : Nat
  denominator : Nat
  closed : Bool

def Interval.holds (interval : Interval) (numerator : Nat) : Bool :=
  if interval.closed then
    decide (interval.lower ≤ numerator) && decide (numerator ≤ interval.upper)
  else decide (interval.lower < numerator) && decide (numerator < interval.upper)

/-- Rescaled so that the points of the grid 10 ^ exponent are the multiples of the returned
step. -/
def Interval.onGrid (interval : Interval) (exponent : Int) : Interval × Nat :=
  match exponent with
  | .ofNat places => (interval, interval.denominator * Nat.pow 10 places)
  | .negSucc places =>
      let factor := Nat.pow 10 (places + 1)
      ({ interval with
          lower := interval.lower * factor
          value := interval.value * factor
          upper := interval.upper * factor }, interval.denominator)

def Interval.pointOn? (interval : Interval) (tie : Tie) (exponent : Int) : Option Nat :=
  let (scaled, step) := interval.onGrid exponent
  let below := scaled.value / step
  let rest := scaled.value % step
  match scaled.holds (below * step), scaled.holds ((below + 1) * step) with
  | false, false => none
  | true, false => some below
  | false, true => some (below + 1)
  | true, true =>
      if 2 * rest < step then some below
      else if step < 2 * rest then some (below + 1)
      else match tie with
        | .up => some (below + 1)
        | .even => some (if below % 2 = 0 then below else below + 1)

/-- No binary64 number needs a grid finer than this one. -/
def finest : Int := -345

def Interval.coarsest (interval : Interval) (tie : Tie) : Nat → Scaled
  | 0 => ⟨0, finest⟩
  | coarser + 1 =>
      match interval.pointOn? tie (finest + coarser) with
      | some point => ⟨point, finest + coarser⟩
      | none => coarsest interval tie coarser

/-- Grids from 10 ^ 310 down are tried. -/
def gridCount : Nat := 656

def Interval.shortest (interval : Interval) (tie : Tie) : Scaled :=
  interval.coarsest tie gridCount

/-- A binary64 pattern taken apart. -/
inductive Binary64 where
  | notANumber
  | infinite (negative : Bool)
  | zero (negative : Bool)
  | finite (negative : Bool) (interval : Interval)

def intervalOf (significand : Nat) (exponent : Int) (lowestOfBinade : Bool) : Interval :=
  let lower := if lowestOfBinade then 4 * significand - 1 else 4 * significand - 2
  let factor := Nat.pow 2 exponent.toNat
  { lower := lower * factor
    value := 4 * significand * factor
    upper := (4 * significand + 2) * factor
    denominator := 4 * Nat.pow 2 (-exponent).toNat
    closed := significand % 2 = 0 }

/-- The bit in front of the fraction, which a pattern does not hold. -/
def hiddenBit : Nat := 0x10000000000000

/-- One sign bit, eleven of exponent, fifty-two of fraction. -/
def Binary64.ofBits (bits : UInt64) : Binary64 :=
  let negative := decide (0x8000000000000000 ≤ bits.toNat)
  let field := bits.toNat / hiddenBit % 2048
  let fraction := bits.toNat % hiddenBit
  if field = 2047 then (if fraction = 0 then .infinite negative else .notANumber)
  else if field = 0 then
    if fraction = 0 then .zero negative
    else .finite negative (intervalOf fraction (-1074) false)
  else
    .finite negative
      (intervalOf (hiddenBit + fraction) ((field : Int) - 1075) (decide (fraction = 0 ∧ 1 < field)))

end BundleStore.Decimal
