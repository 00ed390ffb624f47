/-
# Handoff.Proofs.Tag.Lengths — the unit rewrites lengths and nothing else

Trees of one scene in two units are looked at through the view that leaves lengths out. At every node both
have the same view, because the style of a node depends on the unit through its lengths only, and taking a
number from the counter does not depend on it at all. Declared components and markup are functions of that
view, so a module is the same text in every unit.
-/

import Handoff.Proofs.Style.Lengths
import Handoff.Proofs.Tag.Comparison

namespace Handoff

namespace Tag

/-! ## The view without lengths -/

/-- The head without the values of declarations that may be lengths. -/
def Head.withoutLengths (h : Head) : Head :=
  { h with style := h.style.withoutLengths }

/-- The tree without the values of declarations that may be lengths. -/
def withoutLengths (t : Tag) : Tag :=
  t.mapHead Head.withoutLengths

theorem keepsDeclared_withoutLengths : KeepsDeclared Head.withoutLengths where
  isInstance _ := rfl
  isDeclaredBy _ := rfl
  instantiate _ _ := rfl

theorem keepsWritten_withoutLengths : Markup.KeepsWritten Head.withoutLengths where
  head _ := rfl
  className _ := rfl
  isEmpty _ := List.isEmpty_map

/-! ## Two units compared -/

/-- Building in the unit of the context, compared with building in a given one. -/
def unitComparison (detection : Detection) (unit : LengthUnit) : Comparison :=
  .ofScene (·.withUnit unit) detection detection Head.withoutLengths Head.withoutLengths
    (fun _ _ => rfl) (fun _ => rfl)

/-- In both units a node is shown alike, and gets the same head but for lengths. -/
theorem unitComparison_agreesAt (detection : Detection) (unit : LengthUnit) (n : SceneNode) :
    (unitComparison detection unit).AgreesAt n where
  isImageLike := rfl
  head ctx counter := by
    show Head.withoutLengths (builtHead detection (ctx.withUnit unit) n counter) =
      Head.withoutLengths (builtHead detection ctx n counter)
    unfold Head.withoutLengths builtHead
    simp only [SceneNode.withoutLengths_inferStyle]
    rfl

/-- **The unit rewrites lengths and nothing else.** In two units a scene has, with any declared components,
the same tree but for the values of properties that are given lengths, and leaves the counter at the same
number; if it has no tree in one unit it has none in the other. The module is the same text in every
dialect. -/
theorem build_withoutLengths (root : SceneNode) (unit unit' : LengthUnit) (detection : Detection)
    (start : Counter) (components : List UserComponent) :
    let first := build root unit detection start
    let second := build root unit' detection start
    (second.1.map fun t => (t.identify components).withoutLengths) =
      (first.1.map fun t => (t.identify components).withoutLengths) ∧
    second.2 = first.2 ∧
    ∀ dialect, (second.1.map fun t => Markup.moduleText dialect (t.identify components)) =
      first.1.map fun t => Markup.moduleText dialect (t.identify components) := by
  intro first second
  have hagree : second.1.map withoutLengths = first.1.map withoutLengths ∧ second.2 = first.2 :=
    (unitComparison detection unit').buildIn_eq (unitComparison_agreesAt detection unit') { unit } root
      start
  obtain ⟨hview, hcounter⟩ := hagree
  -- What is made from a tree through the view alone is the same in both units.
  have hmade {α : Type} {make : Tag → α} (fromView : Tag → α)
      (h : ∀ t, make t = fromView t.withoutLengths) : second.1.map make = first.1.map make := by
    have hmake : make = fromView ∘ withoutLengths := funext h
    rw [hmake, ← Option.map_map, ← Option.map_map, hview]
  have hdeclared (t : Tag) :
      (t.identify components).withoutLengths = t.withoutLengths.identify components :=
    (identify_mapHead keepsDeclared_withoutLengths components t).symm
  have hmodule (dialect : Markup.Dialect) (t : Tag) : Markup.moduleText dialect (t.identify components) =
      Markup.moduleText dialect (t.withoutLengths.identify components) := by
    rw [← hdeclared]
    exact (Markup.moduleText_mapHead keepsWritten_withoutLengths dialect _).symm
  exact ⟨hmade (identify components) hdeclared, hcounter, fun dialect =>
    hmade (fun t => Markup.moduleText dialect (t.identify components)) (hmodule dialect)⟩

end Tag

end Handoff
