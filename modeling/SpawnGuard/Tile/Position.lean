import SpawnGuard.Word

/-!
Positions in the world: two single-precision numbers, given by their bits, of which only the
floor is ever asked.
-/
namespace SpawnGuard

structure Single where
  bits : UInt32
  deriving DecidableEq, Repr

namespace Single

def isNegative (x : Single) : Bool := 2147483648 ≤ x.bits.toNat

def exponentField (x : Single) : Nat := x.bits.toNat / 8388608 % 256

def fractionField (x : Single) : Nat := x.bits.toNat % 8388608

/-- The digits of a finite number, to be scaled by the power of two next to it. -/
def significand (x : Single) : Int :=
  let magnitude : Nat :=
    if x.exponentField = 0 then x.fractionField else 8388608 + x.fractionField
  if x.isNegative then -(magnitude : Int) else magnitude

def floor (x : Single) : Int :=
  let exponent := max x.exponentField 1
  if 150 ≤ exponent then x.significand <<< (exponent - 150)
  else x.significand >>> (150 - exponent)

/-- The floor as a word: the nearest one if it does not fit, zero for what is not a number. -/
def floorWord (x : Single) : Int32 :=
  if x.exponentField = 255 then
    if x.fractionField ≠ 0 then 0
    else if x.isNegative then Int32.minValue
    else Int32.maxValue
  else Word.clamp x.floor

end Single

structure Position where
  x : Single
  y : Single
  deriving DecidableEq, Repr

end SpawnGuard
