/-
# Handoff.Proofs.Scene.Shape — changes that keep the shape of a scene

A map of nodes may change what a scene looks like and still leave every node where it is. `KeepsShape` lists
what such a map keeps. Where a node stands, whether it anchors others, and whether it is shown as an image then
stay the same, and its declarations change as much as those that its kind calls for.
-/

import Handoff.Proofs.Scene.Hidden

namespace Handoff.SceneNode

/-- A map of nodes that keeps the tree, the layers, and what placing a node and telling images apart ask
for. -/
structure KeepsShape (f : SceneNode → SceneNode) : Prop where
  layer : ∀ n, (f n).layer = n.layer
  children : ∀ n, (f n).children = n.children.map f
  characters? : ∀ n, (f n).characters? = n.characters?
  isText : ∀ n, (f n).isText = n.isText
  isVector : ∀ n, (f n).isVector = n.isVector
  isGroup : ∀ n, (f n).isGroup = n.isGroup
  placesByHand : ∀ n, (f n).placesByHand = n.placesByHand
  showsImage : ∀ n, (f n).fills.any showsImage = n.fills.any showsImage

namespace KeepsShape

variable {f : SceneNode → SceneNode} (hf : KeepsShape f)

include hf

theorem name (n : SceneNode) : (f n).name = n.name := by
  rw [SceneNode.name, hf.layer, SceneNode.name]

theorem visible (n : SceneNode) : (f n).visible = n.visible := by
  rw [SceneNode.visible, hf.layer, SceneNode.visible]

theorem filter_children (n : SceneNode) :
    (f n).children.filter SceneNode.visible = (n.children.filter SceneNode.visible).map f := by
  have hvisible : SceneNode.visible ∘ f = SceneNode.visible := funext hf.visible
  rw [hf.children, List.filter_map, hvisible]

theorem isAbsolute (n : SceneNode) (parent : Option SceneNode) :
    (f n).isAbsolute (parent.map f) = n.isAbsolute parent := by
  cases parent with
  | none => rfl
  | some parent =>
    show (f n).isAbsoluteIn (f parent) = n.isAbsoluteIn parent
    simp only [isAbsoluteIn, hf.visible, hf.layer, hf.placesByHand]

theorem hasAbsoluteChild (n : SceneNode) : (f n).hasAbsoluteChild = n.hasAbsoluteChild := by
  rw [SceneNode.hasAbsoluteChild, hf.children, List.any_map]
  exact congrArg n.children.any (funext fun m => hf.isAbsolute m (some n))

/-- Vector art is made of vectors and groups. -/
theorem isImageLike (n : SceneNode) : (f n).isImageLike = n.isImageLike := by
  have hart : (f n).hasVectorArt = n.hasVectorArt := by
    simp only [hasVectorArt, hf.children, List.all_map, List.any_map, Function.comp_def, hf.isVector, hf.isGroup]
  rw [SceneNode.isImageLike, hart, hf.isVector, hf.isText, hf.showsImage, SceneNode.isImageLike]

/-- A node that calls for some more declarations by its kind has those more. -/
theorem declarations_eq_append {n : SceneNode} {ctx : StyleContext} {more : List StyleProperty}
    (hkind : n.kindRules ctx.unit = (f n).kindRules ctx.unit ++ more) :
    n.declarations ctx = (f n).declarations (ctx.mapParent f) ++ if n.isImageLike then [] else more :=
  SceneNode.declarations_eq_append (hf.layer n) (hf.isAbsolute n ctx.parent) (hf.hasAbsoluteChild n)
    (hf.isVector n) (hf.isImageLike n) rfl hkind

theorem declarations_eq {n : SceneNode} {ctx : StyleContext}
    (hkind : (f n).kindRules ctx.unit = n.kindRules ctx.unit) :
    (f n).declarations (ctx.mapParent f) = n.declarations ctx :=
  declarations_congr (hf.layer n) (hf.isAbsolute n ctx.parent) (hf.hasAbsoluteChild n) (hf.isVector n)
    (hf.isImageLike n) rfl hkind

end KeepsShape

end Handoff.SceneNode
