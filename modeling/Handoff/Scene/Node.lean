/-
# Handoff.Scene.Node — the scene tree

A scene is a tree of nodes. Every node has a `Layer`: its name, its place and size, and what else any
node can carry. Beyond that a node is one of five things. A container (a frame, an instance or a
component definition) lays out children and can be painted; a group only holds children; a shape is
painted geometry without children; a text is a run of characters; and a node of a kind that this
library does not know keeps its children and nothing else. A leaf has no list of children to be empty:
that a shape or a text is a leaf is part of the type.
-/

import Handoff.Scene.Paint

namespace Handoff

/-! ## Attributes -/

/-- Whether a node takes part in its parent's automatic layout. -/
inductive Positioning where
  | auto
  | absolute
  deriving DecidableEq, Inhabited

/-- What every node carries. The opacity is `none` when none is declared. -/
structure Layer where
  id : String := ""
  name : String
  visible : Bool := true
  x : Float := 0
  y : Float := 0
  width : Float := 0
  height : Float := 0
  /-- In degrees. -/
  rotation : Float := 0
  opacity : Option Float := none
  positioning : Positioning := .auto
  /-- The share of free space that the node takes in an automatic layout. -/
  grow : Float := 0
  deriving BEq, Inhabited

inductive LayoutMode where
  | none
  | horizontal
  | vertical
  deriving DecidableEq, Inhabited

/-- How children are placed along the layout's direction. -/
inductive MainAlign where
  | min
  | max
  | center
  | spaceBetween
  deriving DecidableEq, Inhabited

/-- How children are placed across the layout's direction. -/
inductive CrossAlign where
  | min
  | max
  | center
  | baseline
  deriving DecidableEq, Inhabited

/-- Whether an axis has a size of its own or takes that of its content. -/
inductive Sizing where
  | fixed
  | auto
  deriving DecidableEq, Inhabited

/-- One number for each side. -/
structure Sides where
  top : Float := 0
  right : Float := 0
  bottom : Float := 0
  left : Float := 0
  deriving BEq, Inhabited

/-- One number for each corner. -/
structure Corners where
  topLeft : Float := 0
  topRight : Float := 0
  bottomRight : Float := 0
  bottomLeft : Float := 0
  deriving BEq, Inhabited

/-- A radius for all corners, or one for each. -/
inductive CornerRadius where
  | uniform (radius : Float)
  | perCorner (corners : Corners)
  deriving BEq

instance : Inhabited CornerRadius := ⟨.uniform 0⟩

/-- Paint and layout of a container. -/
structure Container where
  fills : List Paint := []
  strokes : List Paint := []
  strokeWeight : Float := 0
  cornerRadius : CornerRadius := .uniform 0
  layoutMode : LayoutMode := .none
  mainAlign : MainAlign := .min
  crossAlign : CrossAlign := .min
  mainSizing : Sizing := .fixed
  crossSizing : Sizing := .fixed
  padding : Sides := {}
  itemSpacing : Float := 0
  deriving BEq, Inhabited

/-- Paint and corners of leaf geometry. -/
structure Shape where
  fills : List Paint := []
  strokes : List Paint := []
  strokeWeight : Float := 0
  cornerRadius : CornerRadius := .uniform 0
  deriving BEq, Inhabited

structure FontName where
  family : String := ""
  style : String := ""
  deriving BEq, Inhabited

inductive LetterSpacing where
  | pixels (value : Float)
  | percent (value : Float)
  deriving BEq

instance : Inhabited LetterSpacing := ⟨.pixels 0⟩

inductive LineHeight where
  | auto
  | pixels (value : Float)
  | percent (value : Float)
  deriving BEq, Inhabited

inductive TextAlign where
  | left
  | right
  | center
  | justified
  deriving DecidableEq, Inhabited

inductive VerticalAlign where
  | top
  | center
  | bottom
  deriving DecidableEq, Inhabited

inductive TextDecoration where
  | none
  | underline
  | strikethrough
  deriving DecidableEq, Inhabited

/-- A run of characters and how it is set. -/
structure TextRun where
  characters : String := ""
  fontSize : Float := 0
  fontName : FontName := {}
  letterSpacing : LetterSpacing := .pixels 0
  lineHeight : LineHeight := .auto
  align : TextAlign := .left
  verticalAlign : VerticalAlign := .top
  decoration : TextDecoration := .none
  fills : List Paint := []
  strokes : List Paint := []
  deriving BEq, Inhabited

/-! ## Nodes -/

/-- What a container is used for. -/
inductive ContainerRole where
  | frame
  | componentInstance
  | component
  deriving DecidableEq, Inhabited

inductive ShapeForm where
  | rectangle
  | ellipse
  | polygon
  | star
  | line
  | vector
  deriving DecidableEq, Inhabited

inductive SceneNode where
  | container (role : ContainerRole) (layer : Layer) (box : Container) (children : List SceneNode)
  | group (layer : Layer) (children : List SceneNode)
  | shape (form : ShapeForm) (layer : Layer) (geometry : Shape)
  | text (layer : Layer) (run : TextRun)
  /-- A node of a kind that this library does not know, with the name of that kind. -/
  | other (kind : String) (layer : Layer) (children : List SceneNode)

namespace SceneNode

def layer : SceneNode → Layer
  | container _ layer _ _ => layer
  | group layer _ => layer
  | shape _ layer _ => layer
  | text layer _ => layer
  | other _ layer _ => layer

def name (n : SceneNode) : String :=
  n.layer.name

def visible (n : SceneNode) : Bool :=
  n.layer.visible

/-- The children in scene order; a leaf has none. -/
def children : SceneNode → List SceneNode
  | container _ _ _ children => children
  | group _ children => children
  | shape _ _ _ => []
  | text _ _ => []
  | other _ _ children => children

/-- The fills; groups and unknown kinds have none. -/
def fills : SceneNode → List Paint
  | container _ _ box _ => box.fills
  | shape _ _ geometry => geometry.fills
  | text _ run => run.fills
  | group _ _ => []
  | other _ _ _ => []

/-- The strokes; groups and unknown kinds have none. -/
def strokes : SceneNode → List Paint
  | container _ _ box _ => box.strokes
  | shape _ _ geometry => geometry.strokes
  | text _ run => run.strokes
  | group _ _ => []
  | other _ _ _ => []

/-- The width of the strokes; zero for what is no container and no shape. -/
def strokeWeight : SceneNode → Float
  | container _ _ box _ => box.strokeWeight
  | shape _ _ geometry => geometry.strokeWeight
  | _ => 0

/-- The layout of a container. -/
def container? : SceneNode → Option Container
  | container _ _ box _ => some box
  | _ => none

/-- The corners of a container or a rectangle. -/
def cornerRadius? : SceneNode → Option CornerRadius
  | container _ _ box _ => some box.cornerRadius
  | shape .rectangle _ geometry => some geometry.cornerRadius
  | _ => none

/-- The characters of a text. -/
def characters? : SceneNode → Option String
  | text _ run => some run.characters
  | _ => none

def isText : SceneNode → Bool
  | text _ _ => true
  | _ => false

def isVector : SceneNode → Bool
  | shape .vector _ _ => true
  | _ => false

def isGroup : SceneNode → Bool
  | group _ _ => true
  | _ => false

def isInstance : SceneNode → Bool
  | container .componentInstance _ _ _ => true
  | _ => false

def isComponent : SceneNode → Bool
  | container .component _ _ _ => true
  | _ => false

/-! ## Equality -/

mutual

/-- Whether two scenes are alike field by field; doubles are compared as numbers. -/
def beq : SceneNode → SceneNode → Bool
  | container role layer box children, container role' layer' box' children' =>
    role == role' && layer == layer' && box == box' && beqList children children'
  | group layer children, group layer' children' => layer == layer' && beqList children children'
  | shape form layer geometry, shape form' layer' geometry' =>
    form == form' && layer == layer' && geometry == geometry'
  | text layer run, text layer' run' => layer == layer' && run == run'
  | other kind layer children, other kind' layer' children' =>
    kind == kind' && layer == layer' && beqList children children'
  | _, _ => false

def beqList : List SceneNode → List SceneNode → Bool
  | [], [] => true
  | n :: ns, m :: ms => n.beq m && beqList ns ms
  | _, _ => false

end

end SceneNode

instance : BEq SceneNode where
  beq := SceneNode.beq

instance : Inhabited SceneNode := ⟨.group { name := "" } []⟩

end Handoff
