/-
# Handoff.Proofs.Style.Equality — numbers that are equal

Collapsing compares numbers as doubles are compared: NaN is not equal to itself, and the two zeros are equal to each
other. Equality is symmetric and transitive all the same, and numbers that are equal are the same one unless they
are zeros.

The laws of doubles are in no single file of the library. This is the only module that imports all of it.
-/

import Mathlib

namespace Handoff

/-- Whether numbers are equal to each other, and so none of them is NaN. -/
def AllEqual (xs : List Float) : Prop :=
  ∀ x ∈ xs, ∀ y ∈ xs, x == y

instance (xs : List Float) : Decidable (AllEqual xs) :=
  inferInstanceAs (Decidable (∀ x ∈ xs, ∀ y ∈ xs, x == y))

/-- It is enough to compare with one of them. -/
theorem allEqual_iff {xs : List Float} {a : Float} (ha : a ∈ xs) : AllEqual xs ↔ ∀ x ∈ xs, x == a := by
  constructor
  · intro h x hx
    exact h x hx a ha
  · intro h x hx y hy
    exact BEq.trans (h x hx) (BEq.symm (h y hy))

/-- Equal numbers are the same, unless they are zeros. -/
theorem eq_of_beq_of_ne_zero {x y : Float} (h : x == y) (hx : (x == 0) = false) : x = y := by
  obtain ⟨-, -, rfl | ⟨rfl, -⟩ | ⟨rfl, -⟩⟩ := Float.beq_iff_ne_nan_and_eq.mp h
  · rfl
  · exact absurd hx (by decide)
  · exact absurd hx (by decide)

/-- Only NaN is not equal to itself. -/
theorem beq_self_of_not_isNaN {x : Float} (h : ¬x.isNaN) : x == x :=
  Float.beq_self_iff.mpr (by simpa using h)

end Handoff
