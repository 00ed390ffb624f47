/-
# Handoff.Style.Inference — from a node to its style record

The declarations of a node come in a fixed order: its place, its opacity and rotation, and then either
those of an image or those of its kind. Each group is a list of its own, so the whole is a concatenation
and every group can be read without the others.

A class name is `text` with a number for a text, the parent's name and `img` with a number for an image,
and the node's name with its depth and its place among its siblings for everything else. Only texts and
images take a number from the counter.
-/

import Handoff.Scene.Appearance
import Handoff.Style.Color
import Handoff.Style.Record
import Handoff.Style.Shorthand

namespace Handoff

/-- Where a node stands: the unit of lengths, its depth below the root, its place among its parent's
visible children, and the parent. -/
structure StyleContext where
  unit : LengthUnit
  depth : Nat := 0
  siblingIndex : Nat := 0
  parent : Option SceneNode := none

namespace SceneNode

/-! ## Place and effects -/

/-- A node out of flow says where it stands; a node that such children refer to becomes their anchor. -/
def placeRules (n : SceneNode) (ctx : StyleContext) : List StyleProperty :=
  if n.isAbsolute ctx.parent then
    [⟨"position", "absolute"⟩, ⟨"left", ctx.unit.formatSize n.layer.x⟩,
     ⟨"top", ctx.unit.formatSize n.layer.y⟩]
  else if n.hasAbsoluteChild then [⟨"position", "relative"⟩]
  else []

/-- The opacity, if it makes a difference: zero cannot be told from none declared. -/
def opacityRules (n : SceneNode) : List StyleProperty :=
  match n.layer.opacity with
  | some o => if 0 < o && o < 1 then [⟨"opacity", formatNumber o⟩] else []
  | none => []

def rotationRules (n : SceneNode) : List StyleProperty :=
  if n.layer.rotation != 0 then
    [⟨"transform", "rotate(" ++ formatNumber n.layer.rotation.floor ++ "deg)"⟩]
  else []

/-- Opacity and rotation. A vector is exported as it looks and needs neither. -/
def effectRules (n : SceneNode) : List StyleProperty :=
  if n.isVector then [] else n.opacityRules ++ n.rotationRules

/-! ## Size and paint -/

/-- The literal size; a node of no size has none. -/
def sizeRules (n : SceneNode) : List StyleProperty :=
  if n.layer.width == 0 && n.layer.height == 0 then []
  else [⟨"height", formatPixelFloor n.layer.height⟩, ⟨"width", formatPixelFloor n.layer.width⟩]

def radiusRules (n : SceneNode) (unit : LengthUnit) : List StyleProperty :=
  match n.borderRadius? unit with
  | some radius => [⟨"border-radius", radius⟩]
  | none => []

/-- The property that shows a paint behind a node. -/
def backgroundProperty (p : Paint) : String :=
  match p.kind with
  | .linearGradient _ _ => "background"
  | _ => "background-color"

/-- The background, from the first fill if that is visible and no image. -/
def backgroundRules (fills : List Paint) : List StyleProperty :=
  match fills.head? with
  | some p =>
    if p.isImage || !p.visible then []
    else
      match p.css? with
      | some color => [⟨backgroundProperty p, color⟩]
      | none => []
  | none => []

/-- The border, from the first stroke. -/
def borderRules (n : SceneNode) (unit : LengthUnit) : List StyleProperty :=
  match n.strokes.head?.bind Paint.css? with
  | some color => [⟨"border", unit.formatSize n.strokeWeight ++ " solid " ++ color⟩]
  | none => []

/-! ## Images -/

/-- The service that stands in for images. -/
def placeholderService : String := "https://via.placeholder.com"

def imageRules (n : SceneNode) : List StyleProperty :=
  [⟨"background-image", "url(" ++ placeholderService ++ "/" ++ formatNumber n.layer.width.round ++ "x"
      ++ formatNumber n.layer.height.round ++ ")"⟩,
   ⟨"background-size", "cover"⟩]

end SceneNode

/-! ## Containers -/

def MainAlign.css : MainAlign → String
  | .min => "flex-start"
  | .max => "flex-end"
  | .center => "center"
  | .spaceBetween => "space-between"

def CrossAlign.css : CrossAlign → String
  | .min => "flex-start"
  | .max => "flex-end"
  | .center => "center"
  | .baseline => "baseline"

/-- A fixed size along one axis of an automatic layout. -/
def axisRules (sizing : Sizing) (name : String) (size : Float) : List StyleProperty :=
  if sizing = .fixed then [⟨name, formatPixelFloor size⟩] else []

def paddingRules (box : Container) (unit : LengthUnit) : List StyleProperty :=
  match box.padding.padding? unit with
  | some padding => [⟨"padding", padding⟩]
  | none => []

/-- The gap between children; none where the free space is already spread between them. -/
def gapRules (box : Container) (unit : LengthUnit) : List StyleProperty :=
  if box.mainAlign != .spaceBetween && 0 < box.itemSpacing then
    [⟨"gap", unit.formatSize box.itemSpacing⟩]
  else []

/-- The automatic layout of a container: `direction` of its children, with the axis sizes by name, the
one along that direction first. -/
def flexRules (layer : Layer) (box : Container) (unit : LengthUnit) (direction : String)
    (main cross : String × Float) : List StyleProperty :=
  [⟨"display", "flex"⟩, ⟨"flex-direction", direction⟩, ⟨"justify-content", box.mainAlign.css⟩,
    ⟨"align-items", box.crossAlign.css⟩]
    ++ (if layer.grow != 0 then [⟨"flex-grow", formatNumber layer.grow⟩] else [])
    ++ axisRules box.mainSizing main.1 main.2
    ++ axisRules box.crossSizing cross.1 cross.2
    ++ paddingRules box unit
    ++ gapRules box unit

/-- The layout of a container: its literal size, or its automatic layout. -/
def layoutRules (n : SceneNode) (box : Container) (unit : LengthUnit) : List StyleProperty :=
  let width := ("width", n.layer.width)
  let height := ("height", n.layer.height)
  match box.layoutMode with
  | .none => n.sizeRules
  | .horizontal => flexRules n.layer box unit "row" width height
  | .vertical => flexRules n.layer box unit "column" height width

/-! ## Texts -/

def TextAlign.css : TextAlign → String
  | .left => "left"
  | .right => "right"
  | .center => "center"
  | .justified => "justify"

def VerticalAlign.css : VerticalAlign → String
  | .top => "top"
  | .center => "middle"
  | .bottom => "bottom"

def LetterSpacing.rules (unit : LengthUnit) : LetterSpacing → List StyleProperty
  | .pixels value => if value != 0 then [⟨"letter-spacing", unit.formatSize value⟩] else []
  | .percent value => if value != 0 then [⟨"letter-spacing", formatNumber value ++ "%"⟩] else []

def LineHeight.css (unit : LengthUnit) : LineHeight → String
  | .auto => "auto"
  | .pixels value => unit.formatSize value
  | .percent value => formatNumber value.round ++ "%"

def TextDecoration.rules : TextDecoration → List StyleProperty
  | .underline => [⟨"text-decoration", "underline"⟩]
  | .strikethrough => [⟨"text-decoration", "line-through"⟩]
  | .none => []

/-- The colour of a text, from its first fill. -/
def textColorRules (fills : List Paint) : List StyleProperty :=
  match fills.head?.bind Paint.css? with
  | some color => [⟨"color", color⟩]
  | none => []

def TextRun.rules (run : TextRun) (unit : LengthUnit) : List StyleProperty :=
  [⟨"text-align", run.align.css⟩, ⟨"vertical-align", run.verticalAlign.css⟩,
    ⟨"font-size", formatNumber run.fontSize ++ "px"⟩]
    ++ (if run.fontName.family.isEmpty then [] else [⟨"font-family", run.fontName.family⟩])
    ++ run.letterSpacing.rules unit
    ++ [⟨"line-height", run.lineHeight.css unit⟩]
    ++ run.decoration.rules
    ++ textColorRules run.fills

/-! ## Records -/

namespace SceneNode

/-- The declarations that a node's kind calls for. -/
def kindRules (n : SceneNode) (unit : LengthUnit) : List StyleProperty :=
  match n with
  | container _ _ box _ =>
    n.radiusRules unit ++ layoutRules n box unit ++ backgroundRules box.fills ++ n.borderRules unit
  | shape .rectangle _ geometry =>
    n.radiusRules unit ++ n.sizeRules ++ backgroundRules geometry.fills ++ n.borderRules unit
  | shape .line _ _ => n.sizeRules ++ n.borderRules unit
  | shape .vector _ _ => []
  | shape _ _ _ => n.sizeRules
  | text _ run => run.rules unit
  | group _ _ => n.sizeRules
  | other _ _ _ => n.sizeRules

/-- The style record of a node, and the counter behind it. -/
def inferStyle (n : SceneNode) (ctx : StyleContext) (counter : Counter) : StyleRecord × Counter :=
  let shared := n.placeRules ctx ++ n.effectRules
  if n.isImageLike then
    let (number, counter) := counter.take
    let parentName := (ctx.parent.map name).getD ""
    (.ofProperties (parentName ++ "img" ++ toString number) (shared ++ n.imageRules), counter)
  else
    let properties := shared ++ n.kindRules ctx.unit
    if properties.isEmpty then (.empty, counter)
    else if n.isText then
      let (number, counter) := counter.take
      (.ofProperties ("text" ++ toString number) properties, counter)
    else
      (.ofProperties (n.name ++ toString ctx.depth ++ toString ctx.siblingIndex) properties, counter)

end SceneNode

end Handoff
