/-
# Handoff.Style.Shorthand — four values in one declaration

Paddings and corner radii have four values each and are written as shortly as the values allow. Four
equal values take one token, and none at all when that token would say nothing. Paddings whose opposite
sides agree take two. Everything else takes four, in the order in which a stylesheet reads them.
-/

import Handoff.Scene.Node
import Handoff.Style.Length

namespace Handoff

/-- Several lengths, separated by spaces. -/
def LengthUnit.formatSizes (unit : LengthUnit) (pixels : List Float) : String :=
  " ".intercalate (pixels.map unit.formatSize)

/-- The padding of a container; equal sides that are not positive need none. -/
def Sides.padding? (s : Sides) (unit : LengthUnit) : Option String :=
  if s.top == s.right && s.top == s.bottom && s.top == s.left then
    if 0 < s.top then some (unit.formatSize s.top) else none
  else if s.top == s.bottom && s.left == s.right then some (unit.formatSizes [s.top, s.left])
  else some (unit.formatSizes [s.top, s.right, s.bottom, s.left])

/-- One radius for all corners; square corners need none. -/
def uniformRadius? (unit : LengthUnit) (radius : Float) : Option String :=
  if radius == 0 then none else some (unit.formatSize radius)

def Corners.toList (c : Corners) : List Float :=
  [c.topLeft, c.topRight, c.bottomRight, c.bottomLeft]

/-- A corner radius; square corners need none. -/
def CornerRadius.css? (unit : LengthUnit) : CornerRadius → Option String
  | .uniform radius => uniformRadius? unit radius
  | .perCorner corners =>
    if corners.toList.all (· == corners.topLeft) then uniformRadius? unit corners.topLeft
    else some (unit.formatSizes corners.toList)

/-- The corner radius of a node; kinds without corners have none. -/
def SceneNode.borderRadius? (n : SceneNode) (unit : LengthUnit) : Option String :=
  n.cornerRadius?.bind (CornerRadius.css? unit)

end Handoff
