/-
# Handoff.Decimal.Scaling — literals read in two roundings

A fast reader of literals does not look for the nearest double. It takes digits over while the number
that they write fits 64 bits, turns that number into a double, and multiplies or divides it by a power of
ten. Both steps round, so the result can miss the nearest double by a little; where the digits fit 53
bits and the power is at most 22 neither step has anything to round but the last, and the result is the
nearest double.
-/

import Handoff.Decimal.Literal

namespace Handoff.Decimal

/-! ## Leading digits -/

/-- Takes digits over into a number while it stays below 2⁶⁴. Returns the number and the digits that are
left. -/
def gather (n : Nat) : List Char → Nat × List Char
  | [] => (n, [])
  | c :: cs =>
    let next := 10 * n + (c.toNat - '0'.toNat)
    if next < UInt64.size then gather next cs else (n, c :: cs)

/-- The digits of a literal that fit 64 bits, and the power of ten that they are to be scaled by. A digit
that is left out in front of the point counts for the power, and so does one that is taken behind it. -/
def Literal.leading (l : Literal) : Decimal :=
  let fraction := l.fraction.getD []
  let (whole, wholeRest) := gather 0 l.whole
  let (digits, fractionRest) := gather whole fraction
  let taken : Int := fraction.length - fractionRest.length
  ⟨digits, l.power + wholeRest.length - taken⟩

/-! ## Powers of ten -/

/-- The largest power of ten that is a double. -/
def topPower : Nat := 308

/-- The double nearest to a power of ten. -/
def powerOfTen (n : Nat) : Float :=
  Float.ofScientific 1 false n

/-- The double times a power of ten; infinite beyond the range of doubles. -/
def raise (x : Float) (power : Nat) : Float :=
  if power ≤ topPower then x * powerOfTen power
  else if x == 0 then x
  else 1.0 / 0.0

/-- The double divided by a power of ten. A power that is no double itself is divided by in parts. -/
def lower (x : Float) (power : Nat) : Float :=
  if _h : power ≤ topPower then x / powerOfTen power
  else if x == 0 then x
  else lower (x / powerOfTen topPower) (power - topPower)
termination_by power
decreasing_by simp only [topPower] at *; omega

/-! ## Value -/

/-- The double of a number and a power of ten. -/
def scaled (d : Decimal) : Float :=
  if d.exponent < 0 then lower (Float.ofNat d.digits) d.exponent.natAbs
  else raise (Float.ofNat d.digits) d.exponent.natAbs

/-- The double that the literal is read as. -/
def Literal.scaledValue (l : Literal) : Float :=
  if l.isNegative then -l.leading.scaled else l.leading.scaled

end Handoff.Decimal
