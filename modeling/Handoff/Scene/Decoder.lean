/-
# Handoff.Scene.Decoder — scenes from JSON

A node is an object with a `name` and a `type`. The type says which further members are looked at: those
of a container, of a shape, of a text, or only `children`. Members that the type does not call for may
hold anything. Almost every field has a default, and only an opacity and the two texts of an image may
be null.

`SceneNode.decode` reads a value whose objects have no repeated keys. A document may have them. In it
`SceneNode.ofDocument` reads the layer of the node itself as it is written, so that a repeated key is
refused there, in the fields and inside of them. For everything else the last of repeated keys wins.
-/

import Handoff.Scene.Names
import Handoff.Json.Record

namespace Handoff

open Json

/-! ## Paints -/

def Rgb.decode (j : Json) : Decoded Rgb := do
  let r ← asRecord 3 j
  return { r := ← r.required 0 "r" asFloat
           g := ← r.required 1 "g" asFloat
           b := ← r.required 2 "b" asFloat }

def Rgba.decode (j : Json) : Decoded Rgba := do
  let r ← asRecord 4 j
  return { r := ← r.required 0 "r" asFloat
           g := ← r.required 1 "g" asFloat
           b := ← r.required 2 "b" asFloat
           a := ← r.required 3 "a" asFloat }

def ColorStop.decode (j : Json) : Decoded ColorStop := do
  let r ← asRecord 2 j
  return { position := ← r.required 0 "position" asFloat
           color := ← r.required 1 "color" Rgba.decode }

/-- Reads exactly two rows of exactly three numbers. -/
def Transform.decode : Json → Decoded Transform
  | .array [.array [a, c, tx], .array [b, d, ty]] => do
    return ⟨← asFloat a, ← asFloat c, ← asFloat tx, ← asFloat b, ← asFloat d, ← asFloat ty⟩
  | _ => .error (.wrongShape "two rows of three numbers")

/-- The kinds of paint that have a name. -/
inductive PaintTag where
  | solid
  | linearGradient
  | image
  | unsupported
  deriving DecidableEq

def PaintTag.names : List (String × PaintTag) :=
  [("SOLID", .solid), ("GRADIENT_LINEAR", .linearGradient), ("IMAGE", .image)]

/-- Reads the kind of a paint: its name, or its number in the list of names. A text or a natural number
that is no such kind stands for an unsupported one. -/
def PaintTag.decode : Json → Decoded PaintTag
  | .text name => .ok ((names.lookup name).getD .unsupported)
  | .number (.whole (.ofNat n)) => .ok ((names[n]?.map (·.2)).getD .unsupported)
  | _ => .error (.wrongShape "a kind of paint")

/-- Reads the fields of a kind of paint. -/
def PaintTag.decodeKind (r : Record) : PaintTag → Decoded PaintKind
  | .solid => return .solid (← r.required 0 "color" Rgb.decode)
  | .linearGradient =>
    return .linearGradient (← r.required 0 "gradientStops" (asList ColorStop.decode))
      (← r.required 1 "gradientTransform" Transform.decode)
  | .image =>
    return .image (← r.optional 0 "imageHash" none (asOption asText))
      (← r.optional 1 "scaleMode" none (asOption asText))
  | .unsupported => return .unsupported

def Paint.decode : Json → Decoded Paint
  | .object members => do
    let r := Record.named members
    let visible ← r.optional 0 "visible" true asBool
    let opacity ← r.optional 0 "opacity" none (asOption asFloat)
    let tag ← r.required 0 "type" PaintTag.decode
    return { kind := ← tag.decodeKind r, visible, opacity }
  | _ => .error (.wrongShape "a paint")

/-! ## Attributes -/

def Corners.decode (j : Json) : Decoded Corners := do
  let r ← asRecord 4 j
  return { topLeft := ← r.optional 0 "topLeft" 0 asFloat
           topRight := ← r.optional 1 "topRight" 0 asFloat
           bottomRight := ← r.optional 2 "bottomRight" 0 asFloat
           bottomLeft := ← r.optional 3 "bottomLeft" 0 asFloat }

/-- Reads a number as a radius for all corners and a record as one for each. -/
def CornerRadius.decode : Json → Decoded CornerRadius
  | .number value => .ok (.uniform value.toFloat)
  | j => (Corners.decode j).map .perCorner

def FontName.decode (j : Json) : Decoded FontName := do
  let r ← asRecord 2 j
  return { family := ← r.optional 0 "family" "" asText
           style := ← r.optional 1 "style" "" asText }

def LetterSpacing.decode (j : Json) : Decoded LetterSpacing := do
  let (unit, r) ← asTagged "unit" j
  let r ← r.within 1
  if unit = "PIXELS" then return .pixels (← r.required 0 "value" asFloat)
  else if unit = "PERCENT" then return .percent (← r.required 0 "value" asFloat)
  else .error (.unknownName unit)

def LineHeight.decode (j : Json) : Decoded LineHeight := do
  let (unit, r) ← asTagged "unit" j
  if unit = "AUTO" then
    let _ ← r.within 0
    return .auto
  else
    let r ← r.within 1
    if unit = "PIXELS" then return .pixels (← r.required 0 "value" asFloat)
    else if unit = "PERCENT" then return .percent (← r.required 0 "value" asFloat)
    else .error (.unknownName unit)

def Layer.decode (members : List (String × Json)) : Decoded Layer := do
  let r := Record.named members
  return { id := ← r.optional 0 "id" "" asText
           name := ← r.required 1 "name" asText
           visible := ← r.optional 2 "visible" true asBool
           x := ← r.optional 3 "x" 0 asFloat
           y := ← r.optional 4 "y" 0 asFloat
           width := ← r.optional 5 "width" 0 asFloat
           height := ← r.optional 6 "height" 0 asFloat
           rotation := ← r.optional 7 "rotation" 0 asFloat
           opacity := ← r.optional 8 "opacity" none (asOption asFloat)
           positioning := ← r.optional 9 "layoutPositioning" .auto (asName Positioning.names)
           grow := ← r.optional 10 "layoutGrow" 0 asFloat }

/-- Reads the members that a container has; a field without a member keeps its value in `base`. -/
def Container.update (base : Container) (members : List (String × Json)) : Decoded Container := do
  let r := Record.named members
  return {
    fills := ← r.optional 1 "fills" base.fills (asList Paint.decode)
    strokes := ← r.optional 2 "strokes" base.strokes (asList Paint.decode)
    strokeWeight := ← r.optional 3 "strokeWeight" base.strokeWeight asFloat
    cornerRadius := ← r.optional 4 "cornerRadius" base.cornerRadius CornerRadius.decode
    layoutMode := ← r.optional 5 "layoutMode" base.layoutMode (asName LayoutMode.names)
    mainAlign := ← r.optional 6 "primaryAxisAlignItems" base.mainAlign (asName MainAlign.names)
    crossAlign := ← r.optional 7 "counterAxisAlignItems" base.crossAlign (asName CrossAlign.names)
    mainSizing := ← r.optional 8 "primaryAxisSizingMode" base.mainSizing (asName Sizing.names)
    crossSizing := ← r.optional 9 "counterAxisSizingMode" base.crossSizing (asName Sizing.names)
    padding := {
      top := ← r.optional 10 "paddingTop" base.padding.top asFloat
      right := ← r.optional 11 "paddingRight" base.padding.right asFloat
      bottom := ← r.optional 12 "paddingBottom" base.padding.bottom asFloat
      left := ← r.optional 13 "paddingLeft" base.padding.left asFloat }
    itemSpacing := ← r.optional 14 "itemSpacing" base.itemSpacing asFloat }

def Container.decode (members : List (String × Json)) : Decoded Container :=
  Container.update {} members

def Shape.decode (members : List (String × Json)) : Decoded Shape := do
  let r := Record.named members
  return { fills := ← r.optional 0 "fills" [] (asList Paint.decode)
           strokes := ← r.optional 1 "strokes" [] (asList Paint.decode)
           strokeWeight := ← r.optional 2 "strokeWeight" 0 asFloat
           cornerRadius := ← r.optional 3 "cornerRadius" (.uniform 0) CornerRadius.decode }

/-- Reads the members that a text has; a field without a member keeps its value in `base`. -/
def TextRun.update (base : TextRun) (members : List (String × Json)) : Decoded TextRun := do
  let r := Record.named members
  return {
    characters := ← r.optional 0 "characters" base.characters asText
    fontSize := ← r.optional 1 "fontSize" base.fontSize asFloat
    fontName := ← r.optional 2 "fontName" base.fontName FontName.decode
    letterSpacing := ← r.optional 3 "letterSpacing" base.letterSpacing LetterSpacing.decode
    lineHeight := ← r.optional 4 "lineHeight" base.lineHeight LineHeight.decode
    align := ← r.optional 5 "textAlignHorizontal" base.align (asName TextAlign.names)
    verticalAlign := ← r.optional 6 "textAlignVertical" base.verticalAlign
      (asName VerticalAlign.names)
    decoration := ← r.optional 7 "textDecoration" base.decoration (asName TextDecoration.names)
    fills := ← r.optional 8 "fills" base.fills (asList Paint.decode)
    strokes := ← r.optional 9 "strokes" base.strokes (asList Paint.decode) }

def TextRun.decode (members : List (String × Json)) : Decoded TextRun :=
  TextRun.update {} members

/-! ## Nodes -/

namespace SceneNode

/-- The node of a kind, from its layer, its members and what its `children` were read as. Only the kinds
that have children look at the latter. -/
def ofKind (kind : String) (layer : Layer) (members : List (String × Json))
    (children : Decoded (List SceneNode)) : Decoded SceneNode :=
  match ContainerRole.names.lookup kind, ShapeForm.names.lookup kind with
  | some role, _ => do return .container role layer (← Container.decode members) (← children)
  | none, some form => do return .shape form layer (← Shape.decode members)
  | none, none =>
    if kind = "TEXT" then do return .text layer (← TextRun.decode members)
    else if kind = "GROUP" then do return .group layer (← children)
    else do return .other kind layer (← children)

mutual

/-- Reads a node from a value whose objects have no repeated keys. -/
def decode : Json → Decoded SceneNode
  | .object members => do
    let layer ← Layer.decode members
    let kind ← (Record.named members).required 0 "type" asText
    ofKind kind layer members (decodeChildren members)
  | _ => .error (.wrongShape "a node")

/-- Reads the `children` among the members of a node; a node without any has no children. -/
def decodeChildren : List (String × Json) → Decoded (List SceneNode)
  | [] => .ok []
  | (key, value) :: members =>
    if key = "children" then decodeArray value else decodeChildren members

def decodeArray : Json → Decoded (List SceneNode)
  | .array items => decodeItems items
  | _ => .error (.wrongShape "an array of nodes")

def decodeItems : List Json → Decoded (List SceneNode)
  | [] => .ok []
  | item :: items => do return (← decode item) :: (← decodeItems items)

end

/-- Reads a node of a document: its layer from the members as they are written, the rest of it from
their canonical form. -/
def ofDocument : Json → Decoded SceneNode
  | .object members => do
    let layer ← Layer.decode members
    let members := sortMembers (canonicalMembers members)
    let kind ← (Record.named members).required 0 "type" asText
    ofKind kind layer members (decodeChildren members)
  | _ => .error (.wrongShape "a node")

end SceneNode

end Handoff
