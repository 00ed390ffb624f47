/-
# Handoff.Proofs.Scene.Ancestry — nodes and the nodes above them

Whether a node of a scene is seen depends on more than the node: one hidden layer above it is enough to
hide it. A *standing* is a node together with the nodes above it, from the root down, and `standings` lists
all of them in scene order. A condition on the nodes above is kept along a whole branch or lost on all of
it: what is seen from a node is the node itself and, if the node is passed, what is seen from its children.
-/

import Handoff.Proofs.Scene.Tree
import Handoff.Scene.Appearance

namespace Handoff

/-- A node of a scene, and the nodes above it from the root down. -/
structure Standing where
  above : List SceneNode
  node : SceneNode

namespace SceneNode

/-! ## Standings -/

mutual

/-- The standings of a node and of all nodes below it, in scene order, if the node has the given nodes
above it. -/
def standingsFrom (above : List SceneNode) : SceneNode → List Standing
  | n@(container _ _ _ children) => ⟨above, n⟩ :: standingsOfList (above ++ [n]) children
  | n@(group _ children) => ⟨above, n⟩ :: standingsOfList (above ++ [n]) children
  | n@(other _ _ children) => ⟨above, n⟩ :: standingsOfList (above ++ [n]) children
  | n@(shape _ _ _) => [⟨above, n⟩]
  | n@(text _ _) => [⟨above, n⟩]

def standingsOfList (above : List SceneNode) : List SceneNode → List Standing
  | [] => []
  | n :: ns => standingsFrom above n ++ standingsOfList above ns

end

/-- The standings of all nodes of a scene, in scene order. -/
def standings (root : SceneNode) : List Standing :=
  root.standingsFrom []

variable {above : List SceneNode}

theorem standingsOfList_eq_flatMap (ns : List SceneNode) :
    standingsOfList above ns = ns.flatMap (standingsFrom above) := by
  induction ns with
  | nil => rw [standingsOfList, List.flatMap_nil]
  | cons n ns ih => rw [standingsOfList, List.flatMap_cons, ih]

/-- All kinds of nodes stand alike; a leaf has an empty list of children. -/
theorem standingsFrom_eq_cons (n : SceneNode) :
    n.standingsFrom above = ⟨above, n⟩ :: n.children.flatMap (standingsFrom (above ++ [n])) := by
  cases n with
  | container role layer box children => rw [standingsFrom, standingsOfList_eq_flatMap]; rfl
  | group layer children => rw [standingsFrom, standingsOfList_eq_flatMap]; rfl
  | other kind layer children => rw [standingsFrom, standingsOfList_eq_flatMap]; rfl
  | shape form layer geometry => rw [standingsFrom]; rfl
  | text layer run => rw [standingsFrom]; rfl

/-- Without the nodes above them, the standings are the nodes of the scene in pre-order. -/
theorem map_node_standingsFrom (n : SceneNode) :
    (n.standingsFrom above).map Standing.node = n.preorder := by
  induction n using induction_on_children generalizing above with
  | step n ih =>
    rw [standingsFrom_eq_cons, preorder_eq_cons, List.map_cons, List.map_flatMap, List.flatMap_def,
      List.flatMap_def, List.map_congr_left fun m hm => ih m hm]

/-- The nodes above a node are also above everything below it. -/
theorem above_prefix_of_mem {n : SceneNode} {s : Standing} (h : s ∈ n.standingsFrom above) :
    above <+: s.above := by
  induction n using induction_on_children generalizing above with
  | step n ih =>
    rw [standingsFrom_eq_cons, List.mem_cons, List.mem_flatMap] at h
    rcases h with rfl | ⟨child, hchild, hs⟩
    · exact List.prefix_rfl
    · exact (List.prefix_append above [n]).trans (ih child hchild hs)

end SceneNode

/-! ## Seen nodes -/

/-- Whether a node is visible and every node above it is passed. -/
def Standing.isSeen (passes : SceneNode → Bool) (s : Standing) : Bool :=
  s.above.all passes && s.node.visible

namespace SceneNode

variable {passes : SceneNode → Bool} {above : List SceneNode}

/-- Nothing is seen below a node that is not passed. -/
theorem filter_isSeen_eq_nil {n m : SceneNode} (hn : n ∈ above) (hclosed : ¬passes n) :
    (m.standingsFrom above).filter (Standing.isSeen passes) = [] := by
  rw [List.filter_eq_nil_iff]
  intro s hs hseen
  rw [Standing.isSeen, Bool.and_eq_true] at hseen
  exact hclosed (List.all_eq_true.mp hseen.1 n ((above_prefix_of_mem hs).mem hn))

/-- What is seen below a node: what is seen below each child, if the node is passed. -/
theorem filter_isSeen_flatMap (n : SceneNode) :
    (n.children.flatMap (standingsFrom (above ++ [n]))).filter (Standing.isSeen passes) =
      if passes n then
        n.children.flatMap fun m => (m.standingsFrom (above ++ [n])).filter (Standing.isSeen passes)
      else [] := by
  rw [List.filter_flatMap]
  by_cases hopen : passes n
  · rw [if_pos hopen]
  · rw [if_neg hopen, List.flatMap_eq_nil_iff]
    intro m _
    exact filter_isSeen_eq_nil (n := n) (by simp) hopen

theorem filter_isSeen_of_visible {n : SceneNode} (habove : above.all passes) (hn : n.visible) :
    (n.standingsFrom above).filter (Standing.isSeen passes) =
      ⟨above, n⟩ ::
        if passes n then
          n.children.flatMap fun m => (m.standingsFrom (above ++ [n])).filter (Standing.isSeen passes)
        else [] := by
  have hseen : Standing.isSeen passes ⟨above, n⟩ := by simp [Standing.isSeen, habove, hn]
  rw [standingsFrom_eq_cons, List.filter_cons_of_pos hseen, filter_isSeen_flatMap]

/-- If only visible nodes are passed, an invisible node hides its whole branch. -/
theorem filter_isSeen_of_hidden (hpasses : ∀ m : SceneNode, passes m → m.visible) {n : SceneNode}
    (hn : ¬n.visible) : (n.standingsFrom above).filter (Standing.isSeen passes) = [] := by
  have hunseen : ¬Standing.isSeen passes ⟨above, n⟩ := by simp [Standing.isSeen, hn]
  have hclosed : ¬passes n := fun h => hn (hpasses n h)
  rw [standingsFrom_eq_cons, List.filter_cons_of_neg hunseen, filter_isSeen_flatMap, if_neg hclosed]

/-- A node that is passed may stand above what is seen. -/
theorem all_append_singleton {n : SceneNode} (habove : above.all passes) (hopen : passes n) :
    (above ++ [n]).all passes := by
  rw [List.all_append, habove, List.all_cons, hopen]
  rfl

end SceneNode

end Handoff
