/-
# Handoff.Scene.Appearance — how a node appears in its parent

Three questions decide how a node is styled: whether it is shown as one image, whether it is taken out of
its parent's flow, and whether it has to anchor children that are. A parent without automatic layout
places all its visible children by hand; the root has no parent and is never taken out of flow.
-/

import Handoff.Scene.Node

namespace Handoff.SceneNode

/-- Whether the children of a node are vector art: vectors and groups only, with a vector among them. -/
def hasVectorArt (n : SceneNode) : Bool :=
  n.children.all (fun c => c.isVector || c.isGroup) && n.children.any isVector

/-- Whether a paint shows an image. -/
def showsImage (p : Paint) : Bool :=
  p.isImage && p.visible

/-- Whether a node is shown as one opaque image: a vector, vector art, or anything but a text with an
image among its visible fills. -/
def isImageLike (n : SceneNode) : Bool :=
  n.isVector || n.hasVectorArt || (!n.isText && n.fills.any showsImage)

/-- Whether a node is a container without automatic layout. -/
def placesByHand (n : SceneNode) : Bool :=
  match n.container? with
  | some box => box.layoutMode == .none
  | none => false

/-- Whether a node is taken out of flow under this parent. -/
def isAbsoluteIn (n parent : SceneNode) : Bool :=
  n.visible && (n.layer.positioning == .absolute || parent.placesByHand)

/-- Whether a node is taken out of flow; without a parent it is not. -/
def isAbsolute (n : SceneNode) (parent : Option SceneNode) : Bool :=
  parent.any n.isAbsoluteIn

/-- Whether a child of the node is taken out of flow. -/
def hasAbsoluteChild (n : SceneNode) : Bool :=
  n.children.any fun child => child.isAbsoluteIn n

end Handoff.SceneNode
