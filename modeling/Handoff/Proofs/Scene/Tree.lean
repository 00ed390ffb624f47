/-
# Handoff.Proofs.Scene.Tree — induction on scenes

Functions on scenes recurse through three constructors that have children and stop at two that have none.
`children` hides that difference, and so do the induction principle and the equation of pre-order below:
what holds of a node as soon as it holds of all its children holds of every node.
-/

import Handoff.Scene.Reading

namespace Handoff.SceneNode

theorem sizeOf_lt_of_mem_children {m n : SceneNode} (h : m ∈ n.children) : sizeOf m < sizeOf n := by
  have hlt : sizeOf m < sizeOf n.children := List.sizeOf_lt_of_mem h
  cases n with
  | container role layer box ms => simp only [children, container.sizeOf_spec] at hlt ⊢; omega
  | group layer ms => simp only [children, group.sizeOf_spec] at hlt ⊢; omega
  | other kind layer ms => simp only [children, other.sizeOf_spec] at hlt ⊢; omega
  | shape form layer geometry => simp [children] at h
  | text layer run => simp [children] at h

/-- Induction from the children of a node to the node. -/
theorem induction_on_children {P : SceneNode → Prop}
    (step : ∀ n, (∀ m ∈ n.children, P m) → P n) (n : SceneNode) : P n :=
  step n fun m _ => induction_on_children step m
termination_by sizeOf n
decreasing_by exact sizeOf_lt_of_mem_children ‹_›

theorem preorderList_eq_flatMap (ns : List SceneNode) : preorderList ns = ns.flatMap preorder := by
  induction ns with
  | nil => rw [preorderList, List.flatMap_nil]
  | cons n ns ih => rw [preorderList, List.flatMap_cons, ih]

theorem preorder_eq_cons (n : SceneNode) : n.preorder = n :: n.children.flatMap preorder := by
  cases n with
  | container role layer box children => rw [preorder, preorderList_eq_flatMap]; rfl
  | group layer children => rw [preorder, preorderList_eq_flatMap]; rfl
  | other kind layer children => rw [preorder, preorderList_eq_flatMap]; rfl
  | shape form layer geometry => rw [preorder]; rfl
  | text layer run => rw [preorder]; rfl

/-- What is asked of all nodes of a scene is asked of its root and of all nodes below each child. -/
theorem forall_mem_preorder {P : SceneNode → Prop} {n : SceneNode} :
    (∀ m ∈ n.preorder, P m) ↔ P n ∧ ∀ child ∈ n.children, ∀ m ∈ child.preorder, P m := by
  rw [preorder_eq_cons, List.forall_mem_cons, List.forall_mem_flatMap]

end Handoff.SceneNode
