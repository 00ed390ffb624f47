/-
# Handoff.Proofs.Scene.Hidden — a scene without its invisible nodes

`withoutHidden` takes every invisible node below the root out of a scene, with all that is below it. A node
keeps everything else, so most of what is read of it stays the same by itself. Two things are read off its
children: whether one of them is out of flow, which asks each child whether it is visible, and whether they
are vector art, which does not ask. Only the second can change.
-/

import Handoff.Proofs.Scene.Tree
import Handoff.Proofs.Style.ClassName

namespace Handoff

namespace SceneNode

mutual

/-- The scene without the invisible nodes below its root. -/
def withoutHidden : SceneNode → SceneNode
  | container role layer box children => container role layer box (withoutHiddenList children)
  | group layer children => group layer (withoutHiddenList children)
  | shape form layer geometry => shape form layer geometry
  | text layer run => text layer run
  | other kind layer children => other kind layer (withoutHiddenList children)

def withoutHiddenList : List SceneNode → List SceneNode
  | [] => []
  | n :: ns =>
    if n.visible then withoutHidden n :: withoutHiddenList ns else withoutHiddenList ns

end

theorem withoutHiddenList_eq (ns : List SceneNode) :
    withoutHiddenList ns = (ns.filter visible).map withoutHidden := by
  induction ns with
  | nil => rw [withoutHiddenList, List.filter_nil, List.map_nil]
  | cons n ns ih =>
    rw [withoutHiddenList, ih]
    by_cases h : n.visible
    · rw [if_pos h, List.filter_cons_of_pos h, List.map_cons]
    · rw [if_neg h, List.filter_cons_of_neg h]

/-! ## What stays the same -/

@[simp] theorem layer_withoutHidden (n : SceneNode) : n.withoutHidden.layer = n.layer := by
  cases n <;> rfl

@[simp] theorem name_withoutHidden (n : SceneNode) : n.withoutHidden.name = n.name := by
  rw [name, layer_withoutHidden, name]

@[simp] theorem visible_withoutHidden (n : SceneNode) : n.withoutHidden.visible = n.visible := by
  rw [visible, layer_withoutHidden, visible]

@[simp] theorem characters?_withoutHidden (n : SceneNode) :
    n.withoutHidden.characters? = n.characters? := by
  cases n <;> rfl

@[simp] theorem isText_withoutHidden (n : SceneNode) : n.withoutHidden.isText = n.isText := by
  cases n <;> rfl

@[simp] theorem isVector_withoutHidden (n : SceneNode) : n.withoutHidden.isVector = n.isVector := by
  cases n <;> rfl

@[simp] theorem isInstance_withoutHidden (n : SceneNode) :
    n.withoutHidden.isInstance = n.isInstance := by
  cases n with
  | container role layer box children => cases role <;> rfl
  | _ => rfl

@[simp] theorem isComponent_withoutHidden (n : SceneNode) :
    n.withoutHidden.isComponent = n.isComponent := by
  cases n with
  | container role layer box children => cases role <;> rfl
  | _ => rfl

@[simp] theorem placesByHand_withoutHidden (n : SceneNode) :
    n.withoutHidden.placesByHand = n.placesByHand := by
  cases n <;> rfl

@[simp] theorem kindRules_withoutHidden (n : SceneNode) (unit : LengthUnit) :
    n.withoutHidden.kindRules unit = n.kindRules unit := by
  cases n with
  | shape form layer geometry => cases form <;> rfl
  | _ => rfl

/-! ## Children -/

/-- The children are the visible ones, each without the invisible nodes below it. -/
theorem children_withoutHidden (n : SceneNode) :
    n.withoutHidden.children = (n.children.filter visible).map withoutHidden := by
  cases n with
  | container role layer box children => exact withoutHiddenList_eq children
  | group layer children => exact withoutHiddenList_eq children
  | shape form layer geometry => rfl
  | text layer run => rfl
  | other kind layer children => exact withoutHiddenList_eq children

/-- No invisible child is left. -/
theorem filter_children_withoutHidden (n : SceneNode) :
    n.withoutHidden.children.filter visible = (n.children.filter visible).map withoutHidden := by
  rw [children_withoutHidden, List.filter_eq_self]
  intro m hm
  obtain ⟨child, hchild, rfl⟩ := List.mem_map.mp hm
  rw [visible_withoutHidden]
  exact (List.mem_filter.mp hchild).2

theorem isAbsoluteIn_withoutHidden (n parent : SceneNode) :
    n.withoutHidden.isAbsoluteIn parent.withoutHidden = n.isAbsoluteIn parent := by
  simp only [isAbsoluteIn, visible_withoutHidden, layer_withoutHidden, placesByHand_withoutHidden]

theorem isAbsolute_withoutHidden (n : SceneNode) (parent : Option SceneNode) :
    n.withoutHidden.isAbsolute (parent.map withoutHidden) = n.isAbsolute parent := by
  cases parent with
  | none => rfl
  | some parent => exact isAbsoluteIn_withoutHidden n parent

/-- Only a visible child can be out of flow. -/
theorem hasAbsoluteChild_withoutHidden (n : SceneNode) :
    n.withoutHidden.hasAbsoluteChild = n.hasAbsoluteChild := by
  have hvisible (child : SceneNode) :
      (child.visible && child.withoutHidden.isAbsoluteIn n.withoutHidden) = child.isAbsoluteIn n := by
    rw [isAbsoluteIn_withoutHidden, isAbsoluteIn, ← Bool.and_assoc, Bool.and_self]
  rw [hasAbsoluteChild, children_withoutHidden, List.any_map, List.any_filter]
  simp only [Function.comp_apply, hvisible]
  rfl

end SceneNode

/-! ## Declarations -/

/-- The context with another scene around the node. -/
def StyleContext.mapParent (f : SceneNode → SceneNode) (ctx : StyleContext) : StyleContext :=
  { ctx with parent := ctx.parent.map f }

namespace SceneNode

/-- A node that is still shown as it was still declares what it declared. -/
theorem declarations_withoutHidden {n : SceneNode} (h : n.withoutHidden.isImageLike = n.isImageLike)
    (ctx : StyleContext) :
    n.withoutHidden.declarations (ctx.mapParent withoutHidden) = n.declarations ctx :=
  declarations_congr n.layer_withoutHidden (n.isAbsolute_withoutHidden ctx.parent)
    n.hasAbsoluteChild_withoutHidden n.isVector_withoutHidden h rfl (n.kindRules_withoutHidden ctx.unit)

end SceneNode

end Handoff
