/-
# Handoff.Scene.Encoder — scenes as JSON

Writing gives every field of a node a member, defaults included, and the names of
`Handoff.Scene.Names`. A node of an unknown kind is written with the type `OTHER`; the name of its kind
goes into a member of its own that reading does not look at.
-/

import Handoff.Scene.Names
import Handoff.Json.Record

namespace Handoff

open Json

/-! ## Paints -/

def Rgb.encode (c : Rgb) : Json :=
  .object [("r", .ofFloat c.r), ("g", .ofFloat c.g), ("b", .ofFloat c.b)]

def Rgba.encode (c : Rgba) : Json :=
  .object [("r", .ofFloat c.r), ("g", .ofFloat c.g), ("b", .ofFloat c.b), ("a", .ofFloat c.a)]

def ColorStop.encode (s : ColorStop) : Json :=
  .object [("position", .ofFloat s.position), ("color", s.color.encode)]

def Transform.encode (t : Transform) : Json :=
  .array [.array [.ofFloat t.a, .ofFloat t.c, .ofFloat t.tx],
          .array [.ofFloat t.b, .ofFloat t.d, .ofFloat t.ty]]

def PaintKind.members : PaintKind → List (String × Json)
  | .solid color => [("type", .text "SOLID"), ("color", color.encode)]
  | .linearGradient stops transform =>
    [("type", .text "GRADIENT_LINEAR"), ("gradientStops", .array (stops.map ColorStop.encode)),
     ("gradientTransform", transform.encode)]
  | .image hash scaleMode =>
    [("type", .text "IMAGE"), ("imageHash", .ofOption .text hash),
     ("scaleMode", .ofOption .text scaleMode)]
  | .unsupported => [("type", .text "UNSUPPORTED")]

def Paint.encode (p : Paint) : Json :=
  .object (p.kind.members ++ [("visible", .bool p.visible), ("opacity", .ofOption .ofFloat p.opacity)])

/-! ## Attributes -/

def Corners.encode (c : Corners) : Json :=
  .object [("topLeft", .ofFloat c.topLeft), ("topRight", .ofFloat c.topRight),
           ("bottomRight", .ofFloat c.bottomRight), ("bottomLeft", .ofFloat c.bottomLeft)]

def CornerRadius.encode : CornerRadius → Json
  | .uniform radius => .ofFloat radius
  | .perCorner corners => corners.encode

def FontName.encode (f : FontName) : Json :=
  .object [("family", .text f.family), ("style", .text f.style)]

def LetterSpacing.encode : LetterSpacing → Json
  | .pixels value => .object [("unit", .text "PIXELS"), ("value", .ofFloat value)]
  | .percent value => .object [("unit", .text "PERCENT"), ("value", .ofFloat value)]

def LineHeight.encode : LineHeight → Json
  | .auto => .object [("unit", .text "AUTO")]
  | .pixels value => .object [("unit", .text "PIXELS"), ("value", .ofFloat value)]
  | .percent value => .object [("unit", .text "PERCENT"), ("value", .ofFloat value)]

def Layer.members (l : Layer) : List (String × Json) :=
  [("id", .text l.id), ("name", .text l.name), ("visible", .bool l.visible), ("x", .ofFloat l.x),
   ("y", .ofFloat l.y), ("width", .ofFloat l.width), ("height", .ofFloat l.height),
   ("rotation", .ofFloat l.rotation), ("opacity", .ofOption .ofFloat l.opacity),
   ("layoutPositioning", ofName Positioning.names l.positioning), ("layoutGrow", .ofFloat l.grow)]

def paintsMember (name : String) (paints : List Paint) : String × Json :=
  (name, .array (paints.map Paint.encode))

def Container.members (c : Container) : List (String × Json) :=
  [paintsMember "fills" c.fills, paintsMember "strokes" c.strokes,
   ("strokeWeight", .ofFloat c.strokeWeight), ("cornerRadius", c.cornerRadius.encode),
   ("layoutMode", ofName LayoutMode.names c.layoutMode),
   ("primaryAxisAlignItems", ofName MainAlign.names c.mainAlign),
   ("counterAxisAlignItems", ofName CrossAlign.names c.crossAlign),
   ("primaryAxisSizingMode", ofName Sizing.names c.mainSizing),
   ("counterAxisSizingMode", ofName Sizing.names c.crossSizing),
   ("paddingTop", .ofFloat c.padding.top), ("paddingRight", .ofFloat c.padding.right),
   ("paddingBottom", .ofFloat c.padding.bottom), ("paddingLeft", .ofFloat c.padding.left),
   ("itemSpacing", .ofFloat c.itemSpacing)]

def Shape.members (s : Shape) : List (String × Json) :=
  [paintsMember "fills" s.fills, paintsMember "strokes" s.strokes,
   ("strokeWeight", .ofFloat s.strokeWeight), ("cornerRadius", s.cornerRadius.encode)]

def TextRun.members (t : TextRun) : List (String × Json) :=
  [("characters", .text t.characters), ("fontSize", .ofFloat t.fontSize),
   ("fontName", t.fontName.encode), ("letterSpacing", t.letterSpacing.encode),
   ("lineHeight", t.lineHeight.encode), ("textAlignHorizontal", ofName TextAlign.names t.align),
   ("textAlignVertical", ofName VerticalAlign.names t.verticalAlign),
   ("textDecoration", ofName TextDecoration.names t.decoration),
   paintsMember "fills" t.fills, paintsMember "strokes" t.strokes]

/-! ## Nodes -/

namespace SceneNode

/-- The name of the node's kind; `OTHER` for every unknown one. -/
def typeName : SceneNode → String
  | container role _ _ _ => nameOf ContainerRole.names role
  | group _ _ => "GROUP"
  | shape form _ _ => nameOf ShapeForm.names form
  | text _ _ => "TEXT"
  | other _ _ _ => "OTHER"

mutual

def encode : SceneNode → Json
  | container role layer box children =>
    .object (layer.members ++ ("type", ofName ContainerRole.names role) ::
      ("children", .array (encodeItems children)) :: box.members)
  | group layer children =>
    .object (layer.members ++
      [("type", .text "GROUP"), ("children", .array (encodeItems children))])
  | shape form layer geometry =>
    .object (layer.members ++ ("type", ofName ShapeForm.names form) :: geometry.members)
  | text layer run => .object (layer.members ++ ("type", .text "TEXT") :: run.members)
  | other kind layer children =>
    .object (layer.members ++ [("type", .text "OTHER"), ("hostType", .text kind),
      ("children", .array (encodeItems children))])

def encodeItems : List SceneNode → List Json
  | [] => []
  | n :: ns => encode n :: encodeItems ns

end

end SceneNode

end Handoff
