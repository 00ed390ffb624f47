/-
# Handoff.Proofs.Scene.Frames — a scene with nothing but frames for containers

`asFrames` makes a frame of every instance and every component definition of a scene and leaves all
attributes as they are. A container is used for something, but that is asked for only where components are
recognised: how a container looks, how it places its children and how it appears in its own parent are the
same for all three uses.
-/

import Handoff.Proofs.Scene.Shape

namespace Handoff.SceneNode

mutual

/-- The scene with every container as a frame. -/
def asFrames : SceneNode → SceneNode
  | container _ layer box children => container .frame layer box (asFramesList children)
  | group layer children => group layer (asFramesList children)
  | shape form layer geometry => shape form layer geometry
  | text layer run => text layer run
  | other kind layer children => other kind layer (asFramesList children)

def asFramesList : List SceneNode → List SceneNode
  | [] => []
  | n :: ns => asFrames n :: asFramesList ns

end

theorem asFramesList_eq_map (ns : List SceneNode) : asFramesList ns = ns.map asFrames := by
  induction ns with
  | nil => rw [asFramesList, List.map_nil]
  | cons n ns ih => rw [asFramesList, List.map_cons, ih]

/-! ## What stays the same -/

theorem layer_asFrames (n : SceneNode) : n.asFrames.layer = n.layer := by
  cases n <;> rfl

theorem children_asFrames (n : SceneNode) : n.asFrames.children = n.children.map asFrames := by
  cases n with
  | container role layer box children => exact asFramesList_eq_map children
  | group layer children => exact asFramesList_eq_map children
  | shape form layer geometry => rfl
  | text layer run => rfl
  | other kind layer children => exact asFramesList_eq_map children

theorem fills_asFrames (n : SceneNode) : n.asFrames.fills = n.fills := by
  cases n <;> rfl

/-- Vector art is made of vectors and groups, and no container is one of them. -/
theorem keepsShape_asFrames : KeepsShape asFrames where
  layer := layer_asFrames
  children := children_asFrames
  characters? n := by cases n <;> rfl
  isText n := by cases n <;> rfl
  isVector n := by cases n <;> rfl
  isGroup n := by cases n <;> rfl
  placesByHand n := by cases n <;> rfl
  showsImage n := by rw [fills_asFrames]

theorem kindRules_asFrames (n : SceneNode) (unit : LengthUnit) :
    n.asFrames.kindRules unit = n.kindRules unit := by
  cases n with
  | shape form layer geometry => cases form <;> rfl
  | _ => rfl

theorem isInstance_asFrames (n : SceneNode) : n.asFrames.isInstance = false := by
  cases n <;> rfl

theorem isComponent_asFrames (n : SceneNode) : n.asFrames.isComponent = false := by
  cases n <;> rfl

/-- A container declares the same whatever it is used for. -/
theorem declarations_asFrames (n : SceneNode) (ctx : StyleContext) :
    n.asFrames.declarations (ctx.mapParent asFrames) = n.declarations ctx :=
  keepsShape_asFrames.declarations_eq (n.kindRules_asFrames ctx.unit)

end Handoff.SceneNode
