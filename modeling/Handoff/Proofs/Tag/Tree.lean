/-
# Handoff.Proofs.Tag.Tree — induction on tag trees

What holds of a tag as soon as it holds of all its children holds of every tag; with that, a function on
trees and its companion on lists of siblings need no induction by turns. The tags that pre-order visits are
then the tags at some position.
-/

import Handoff.Proofs.Tag.Position

namespace Handoff.Tag

theorem sizeOf_lt_of_mem_children {t u : Tag} (h : u ∈ t.children) : sizeOf u < sizeOf t := by
  obtain ⟨head, children⟩ := t
  have hlt : sizeOf u < sizeOf children := List.sizeOf_lt_of_mem h
  rw [mk.sizeOf_spec]
  omega

/-- Induction from the children of a tag to the tag. -/
theorem induction_on_children {P : Tag → Prop}
    (step : ∀ head children, (∀ u ∈ children, P u) → P ⟨head, children⟩) : (t : Tag) → P t
  | ⟨head, children⟩ => step head children fun u _ => induction_on_children step u
termination_by t => sizeOf t
decreasing_by exact sizeOf_lt_of_mem_children ‹_›

theorem preorderList_eq_flatMap (ts : List Tag) : preorderList ts = ts.flatMap preorder := by
  induction ts with
  | nil => rw [preorderList, List.flatMap_nil]
  | cons t ts ih => rw [preorderList, List.flatMap_cons, ih]

/-- Pre-order visits a tag and what it visits below each child. -/
theorem mem_preorder_iff {t u : Tag} :
    u ∈ t.preorder ↔ u = t ∨ ∃ child ∈ t.children, u ∈ child.preorder := by
  rw [preorder_eq_cons, preorderList_eq_flatMap, List.mem_cons, List.mem_flatMap]

theorem self_mem_preorder (t : Tag) : t ∈ t.preorder :=
  mem_preorder_iff.mpr (.inl rfl)

theorem mem_preorder_of_mem_children {t child u : Tag} (hchild : child ∈ t.children)
    (hu : u ∈ child.preorder) : u ∈ t.preorder :=
  mem_preorder_iff.mpr (.inr ⟨child, hchild, hu⟩)

/-- Every tag that pre-order visits stands at some position. -/
theorem exists_at?_of_mem_preorder {t u : Tag} (h : u ∈ t.preorder) : ∃ p, t.at? p = some u := by
  induction t using induction_on_children with
  | step head children ih =>
    rcases mem_preorder_iff.mp h with rfl | ⟨child, hchild, hu⟩
    · exact ⟨[], rfl⟩
    · obtain ⟨p, hp⟩ := ih child hchild hu
      obtain ⟨i, hi⟩ := List.mem_iff_getElem?.mp hchild
      exact ⟨i :: p, at?_cons_eq_some_iff.mpr ⟨child, hi, hp⟩⟩

end Handoff.Tag
