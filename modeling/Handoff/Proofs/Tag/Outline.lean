/-
# Handoff.Proofs.Tag.Outline — tag trees as trees of labels

What can be read back from a text is not a tag tree but a tree of something that the text shows of each tag.
An outline is such a tree: its labels are made from the tags and their depths.
-/

import Handoff.Proofs.Tag.Tree

namespace Handoff

/-! ## Outlines -/

/-- An ordered tree of labels. -/
inductive Outline (α : Type) where
  | node (label : α) (children : List (Outline α))

namespace Outline

variable {α β : Type}

mutual

def map (f : α → β) : Outline α → Outline β
  | .node label children => .node (f label) (mapList f children)

def mapList (f : α → β) : List (Outline α) → List (Outline β)
  | [] => []
  | o :: os => map f o :: mapList f os

end

theorem mapList_eq_map (f : α → β) (os : List (Outline α)) : mapList f os = os.map (map f) := by
  induction os with
  | nil => rw [mapList, List.map_nil]
  | cons o os ih => rw [mapList, List.map_cons, ih]

end Outline

namespace Tag

mutual

/-- A tag tree without what is below its instances. -/
def prune : Tag → Tag
  | ⟨head, children⟩ => ⟨head, if head.isInstance then [] else pruneList children⟩

def pruneList : List Tag → List Tag
  | [] => []
  | t :: ts => prune t :: pruneList ts

end

theorem pruneList_eq_map (ts : List Tag) : pruneList ts = ts.map prune := by
  induction ts with
  | nil => rw [pruneList, List.map_nil]
  | cons t ts ih => rw [pruneList, List.map_cons, ih]

section Outline

variable {α β : Type} (label : Nat → Tag → α) (depth : Nat)

mutual

/-- The outline of a tag tree whose root has the given depth. A label is made from a tag and its depth. -/
def outline (depth : Nat) : Tag → Outline α
  | ⟨head, children⟩ => .node (label depth ⟨head, children⟩) (outlineOfList (depth + 1) children)

def outlineOfList (depth : Nat) : List Tag → List (Outline α)
  | [] => []
  | t :: ts => outline depth t :: outlineOfList depth ts

end

theorem outlineOfList_eq_map (ts : List Tag) :
    outlineOfList label depth ts = ts.map (outline label depth) := by
  induction ts with
  | nil => rw [outlineOfList, List.map_nil]
  | cons t ts ih => rw [outlineOfList, List.map_cons, ih]

theorem outline_eq_node (t : Tag) :
    t.outline label depth = .node (label depth t) (t.children.map (outline label (depth + 1))) := by
  obtain ⟨head, children⟩ := t
  rw [outline, outlineOfList_eq_map]

/-- What is made from the labels could have been the labels. -/
theorem map_outline (f : α → β) (t : Tag) :
    (t.outline label depth).map f = t.outline (fun depth u => f (label depth u)) depth := by
  induction t using induction_on_children generalizing depth with
  | step head children ih =>
    rw [outline_eq_node, outline_eq_node, Outline.map, Outline.mapList_eq_map, List.map_map]
    exact congrArg _ (List.map_congr_left fun u hu => ih u hu (depth + 1))

end Outline

end Tag

end Handoff
