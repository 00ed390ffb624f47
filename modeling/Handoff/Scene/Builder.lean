/-
# Handoff.Scene.Builder — making and changing scene nodes

A new node is visible, has no size and no paint, and takes part in its parent's layout. The changes below
are total: one that a kind of node has no place for leaves the node as it is. Nothing is checked here, so
a size may be negative or no number at all.
-/

import Handoff.Scene.Node

namespace Handoff.SceneNode

/-! ## New nodes -/

def ofRole (role : ContainerRole) (name : String) : SceneNode :=
  container role { name } {} []

def ofForm (form : ShapeForm) (name : String) : SceneNode :=
  shape form { name } {}

def ofGroup (name : String) : SceneNode :=
  group { name } []

/-- A text with these characters. -/
def ofCharacters (name characters : String) : SceneNode :=
  text { name } { characters }

/-! ## The layer -/

/-- Changes what every node carries. -/
def mapLayer (f : Layer → Layer) : SceneNode → SceneNode
  | container role layer box children => container role (f layer) box children
  | group layer children => group (f layer) children
  | shape form layer geometry => shape form (f layer) geometry
  | text layer run => text (f layer) run
  | other kind layer children => other kind (f layer) children

def withSize (n : SceneNode) (width height : Float) : SceneNode :=
  n.mapLayer fun layer => { layer with width, height }

def placedAt (n : SceneNode) (x y : Float) : SceneNode :=
  n.mapLayer fun layer => { layer with x, y }

def hidden (n : SceneNode) : SceneNode :=
  n.mapLayer fun layer => { layer with visible := false }

/-- Takes the node out of its parent's layout. -/
def absolute (n : SceneNode) : SceneNode :=
  n.mapLayer fun layer => { layer with positioning := .absolute }

/-! ## What depends on the kind -/

/-- Adds a child behind the others; a leaf stays as it is. -/
def withChild (n child : SceneNode) : SceneNode :=
  match n with
  | container role layer box children => container role layer box (children ++ [child])
  | group layer children => group layer (children ++ [child])
  | other kind layer children => other kind layer (children ++ [child])
  | leaf => leaf

/-- Adds a fill behind the others; groups and unknown kinds stay as they are. -/
def withFill (paint : Paint) : SceneNode → SceneNode
  | container role layer box children =>
    container role layer { box with fills := box.fills ++ [paint] } children
  | shape form layer geometry =>
    shape form layer { geometry with fills := geometry.fills ++ [paint] }
  | text layer run => text layer { run with fills := run.fills ++ [paint] }
  | unpainted => unpainted

/-- Adds a stroke behind the others and sets the width of all; what is no container and no shape stays
as it is. -/
def withStroke (paint : Paint) (weight : Float) : SceneNode → SceneNode
  | container role layer box children =>
    container role layer { box with strokes := box.strokes ++ [paint], strokeWeight := weight } children
  | shape form layer geometry =>
    shape form layer { geometry with strokes := geometry.strokes ++ [paint], strokeWeight := weight }
  | unstroked => unstroked

/-- Sets the corners of a container or a rectangle. -/
def withCornerRadius (radius : CornerRadius) : SceneNode → SceneNode
  | container role layer box children =>
    container role layer { box with cornerRadius := radius } children
  | shape .rectangle layer geometry =>
    shape .rectangle layer { geometry with cornerRadius := radius }
  | uncornered => uncornered

/-- Changes the paint and layout of a container. -/
def withLayout (f : Container → Container) : SceneNode → SceneNode
  | container role layer box children => container role layer (f box) children
  | n => n

/-- Changes how a text is set. -/
def withRun (f : TextRun → TextRun) : SceneNode → SceneNode
  | text layer run => text layer (f run)
  | n => n

end Handoff.SceneNode
