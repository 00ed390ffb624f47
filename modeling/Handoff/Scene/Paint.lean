/-
# Handoff.Scene.Paint — fills and strokes

A paint is a solid colour, a linear gradient, an image, or a kind that no style is made from. Colour
channels run from zero to one; nothing enforces that range here, and the rules that write colours
clamp where they have to. Every paint can be hidden and can carry an opacity.
-/

namespace Handoff

structure Rgb where
  r : Float
  g : Float
  b : Float
  deriving BEq, Inhabited

structure Rgba where
  r : Float
  g : Float
  b : Float
  a : Float
  deriving BEq, Inhabited

/-- A colour at a position along a gradient. -/
structure ColorStop where
  position : Float
  color : Rgba
  deriving BEq, Inhabited

/-- The affine map with the rows `a c tx` and `b d ty`. -/
structure Transform where
  a : Float
  c : Float
  tx : Float
  b : Float
  d : Float
  ty : Float
  deriving BEq, Inhabited

inductive PaintKind where
  | solid (color : Rgb)
  | linearGradient (stops : List ColorStop) (transform : Transform)
  | image (hash : Option String) (scaleMode : Option String)
  /-- A kind that no style is made from. -/
  | unsupported
  deriving BEq, Inhabited

/-- A fill or a stroke. -/
structure Paint where
  kind : PaintKind
  visible : Bool := true
  opacity : Option Float := none
  deriving BEq, Inhabited

namespace Paint

/-! ## Making paints -/

def solid (r g b : Float) : Paint :=
  { kind := .solid ⟨r, g, b⟩ }

def linearGradient (stops : List ColorStop) (transform : Transform) : Paint :=
  { kind := .linearGradient stops transform }

/-- An image that fills its layer. -/
def image : Paint :=
  { kind := .image none (some "FILL") }

def withOpacity (p : Paint) (opacity : Float) : Paint :=
  { p with opacity := some opacity }

def hidden (p : Paint) : Paint :=
  { p with visible := false }

/-! ## Asking -/

def isImage (p : Paint) : Bool :=
  match p.kind with
  | .image _ _ => true
  | _ => false

end Paint

end Handoff
