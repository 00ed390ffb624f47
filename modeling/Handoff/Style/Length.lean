/-
# Handoff.Style.Length — numbers and lengths in a stylesheet

A stylesheet writes a number with its shortest digits and never writes a negative zero. A length is a
whole number of pixels, written in the unit asked for; a literal size is a floored number of pixels,
written in pixels whatever the unit. What is no finite number of pixels cannot be written and becomes
`0px`.
-/

import Handoff.Decimal.Shortest

namespace Handoff

/-- The unit that lengths are written in. -/
inductive LengthUnit where
  | px
  /-- A `rem` of sixteen pixels. -/
  | rem
  /-- A `rem` of ten pixels. -/
  | remAs10px
  deriving DecidableEq, Inhabited

/-- The pixels that one `rem` stands for, if the unit is a `rem`. -/
def LengthUnit.remBase : LengthUnit → Option Float
  | .px => none
  | .rem => some 16
  | .remAs10px => some 10

/-- A number as a stylesheet writes it. Adding zero turns negative zero into zero. -/
def formatNumber (x : Float) : String :=
  Decimal.text (x + 0)

/-- A length of so many pixels, rounded to a whole pixel, half a pixel away from zero. -/
def LengthUnit.formatSize (unit : LengthUnit) (pixels : Float) : String :=
  if pixels.isFinite then
    match unit.remBase with
    | none => formatNumber pixels.round ++ "px"
    | some base => formatNumber (pixels.round / base) ++ "rem"
  else "0px"

/-- A size in whole pixels, floored. -/
def formatPixelFloor (pixels : Float) : String :=
  if pixels.isFinite then formatNumber pixels.floor ++ "px" else "0px"

end Handoff
