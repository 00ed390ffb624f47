/-
# Handoff.Style.Color — colours and gradients in a stylesheet

A solid paint becomes six hexadecimal digits, or `rgba` when it is translucent; a linear gradient becomes
`linear-gradient` with an angle and its stops. Other paints have no colour. Channels run from zero to one
and become whole numbers from 0 to 255: floored in solid colours, rounded in gradients. What lies outside
the range is clamped, and no number at all becomes zero.
-/

import Handoff.Scene.Paint
import Handoff.Style.Length

namespace Handoff

/-! ## Channels -/

/-- A channel of a solid colour. -/
def floorChannel (v : Float) : UInt8 :=
  (v * 255).floor.toUInt8

/-- A channel of a gradient. -/
def roundChannel (v : Float) : UInt8 :=
  (v * 255).round.toUInt8

/-- A byte as two lower-case hexadecimal digits. -/
def hexByte (b : UInt8) : String :=
  String.ofList (Nat.toDigits 16 (b.toNat / 16) ++ Nat.toDigits 16 (b.toNat % 16))

def decimalByte (b : UInt8) : String :=
  toString b.toNat

/-- The value rounded to two places, halves away from zero. -/
def roundToHundredths (x : Float) : Float :=
  (x * 100).round / 100

/-! ## Solid colours -/

def Rgb.hex (c : Rgb) : String :=
  "#" ++ hexByte (floorChannel c.r) ++ hexByte (floorChannel c.g) ++ hexByte (floorChannel c.b)

/-- The colour with an opacity. -/
def Rgb.translucent (c : Rgb) (opacity : Float) : String :=
  "rgba(" ++ decimalByte (floorChannel c.r) ++ ", " ++ decimalByte (floorChannel c.g) ++ ", "
    ++ decimalByte (floorChannel c.b) ++ ", " ++ formatNumber opacity ++ ")"

/-- The colour of a solid paint; an opacity of one or more is not written. -/
def Rgb.css (c : Rgb) (opacity : Option Float) : String :=
  match opacity with
  | some o => if o < 1 then c.translucent o else c.hex
  | none => c.hex

/-! ## Gradients -/

/-- The degrees in one radian. -/
def degreesPerRadian : Float := 57.29577951308232

/-- The angle of a gradient in degrees. A stylesheet measures from the top and the transform's rotation
runs from the horizontal axis, a quarter turn away. -/
def Transform.gradientAngle (t : Transform) : Float :=
  roundToHundredths (Float.atan2 (-t.c) t.d * degreesPerRadian - 90)

def ColorStop.css (s : ColorStop) : String :=
  "rgba(" ++ decimalByte (roundChannel s.color.r) ++ ", " ++ decimalByte (roundChannel s.color.g)
    ++ ", " ++ decimalByte (roundChannel s.color.b) ++ ", " ++ formatNumber s.color.a ++ ") "
    ++ formatNumber (roundToHundredths (s.position * 100)) ++ "%"

def linearGradientCss (stops : List ColorStop) (transform : Transform) : String :=
  "linear-gradient(" ++ formatNumber transform.gradientAngle ++ "deg, "
    ++ ", ".intercalate (stops.map ColorStop.css) ++ ")"

/-! ## Paints -/

/-- The colour or gradient of a paint. Images and unsupported paints have none, and neither does a
gradient without stops. -/
def Paint.css? (p : Paint) : Option String :=
  match p.kind with
  | .solid color => some (color.css p.opacity)
  | .linearGradient stops transform =>
    if stops.isEmpty then none else some (linearGradientCss stops transform)
  | .image _ _ => none
  | .unsupported => none

end Handoff
