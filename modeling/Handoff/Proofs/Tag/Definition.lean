/-
# Handoff.Proofs.Tag.Definition — where component definitions stand

Markup and stylesheets part ways at component definitions, so a statement about both has to say which
positions a definition covers: its own and all below it. Two sources of trees are then read for what they
can put there. Building marks a definition only where components are recognised, and replacing layers by
declared components marks none.
-/

import Handoff.Proofs.Tag.Declared
import Handoff.Proofs.Tag.Located

namespace Handoff.Tag

variable {t u : Tag} {p : List Nat}

/-! ## Covered positions -/

/-- Whether a component definition stands at a position or above it. -/
def inDefinition : Tag → List Nat → Bool
  | t, [] => t.head.isDefinition
  | t, i :: p => t.head.isDefinition || t.children[i]?.any fun child => child.inDefinition p

theorem inDefinition_cons {child : Tag} {i : Nat} (h : t.children[i]? = some child) (p : List Nat) :
    t.inDefinition (i :: p) = (t.head.isDefinition || child.inDefinition p) := by
  rw [inDefinition, h, Option.any_some]

/-- A definition covers every position of its tree. -/
theorem inDefinition_of_isDefinition (h : t.head.isDefinition) (p : List Nat) : t.inDefinition p := by
  cases p with
  | nil => exact h
  | cons i p => rw [inDefinition, h, Bool.true_or]

/-- A covered position begins with the position of a definition. -/
theorem exists_isDefinition_of_inDefinition (h : t.inDefinition p) :
    ∃ q u, q <+: p ∧ t.at? q = some u ∧ u.head.isDefinition := by
  induction p generalizing t with
  | nil => exact ⟨[], t, List.prefix_rfl, rfl, h⟩
  | cons i p ih =>
    rw [inDefinition, Bool.or_eq_true, Option.any_eq_true] at h
    rcases h with htop | ⟨child, hchild, hbelow⟩
    · exact ⟨[], t, List.nil_prefix, rfl, htop⟩
    · obtain ⟨q, u, hstart, hu, hdefinition⟩ := ih hbelow
      refine ⟨i :: q, u, List.cons_prefix_cons.mpr ⟨rfl, hstart⟩, ?_, hdefinition⟩
      exact at?_cons_eq_some_iff.mpr ⟨child, hchild, hu⟩

/-- A position that begins with the position of a definition is covered. -/
theorem inDefinition_of_prefix {q : List Nat} (hstart : q <+: p) (hu : t.at? q = some u)
    (hp : (t.at? p).isSome) (h : u.head.isDefinition) : t.inDefinition p := by
  induction q generalizing t p with
  | nil =>
    cases hu
    exact inDefinition_of_isDefinition h p
  | cons i q ih =>
    obtain ⟨child, hchild, hu⟩ := at?_cons_eq_some_iff.mp hu
    obtain ⟨later, rfl⟩ := hstart
    rw [List.cons_append, at?, hchild, Option.bind_some] at hp
    rw [List.cons_append, inDefinition_cons hchild, ih (List.prefix_append q later) hu hp, Bool.or_true]

/-! ## Built trees -/

/-- Nothing is marked as a definition where components are not recognised. -/
theorem inDefinition_of_build_ignore {root : SceneNode} {unit : LengthUnit} {start stop : Counter}
    (h : build root unit .ignore start = (some t, stop)) (p : List Nat) : t.inDefinition p = false := by
  rw [Bool.eq_false_iff]
  intro hp
  obtain ⟨q, u, -, hu, hdefinition⟩ := exists_isDefinition_of_inDefinition hp
  obtain ⟨n, c, -, hbuilt⟩ := of_buildIn_at h hu
  obtain ⟨-, hhead, -⟩ := of_buildIn hbuilt
  -- Without recognition the mark is `false` for every node.
  rw [hhead] at hdefinition
  cases hdefinition

/-! ## Declared components -/

variable {components : List UserComponent}

/-- Declared components cover nothing that was not covered. -/
theorem inDefinition_of_identify (h : (identify components t).inDefinition p) :
    ∃ q, t.inDefinition q := by
  obtain ⟨q, u, -, hu, hdefinition⟩ := exists_isDefinition_of_inDefinition h
  obtain ⟨v, hv, hhead | ⟨c, -, hhead⟩⟩ := of_identify_at hu
  · rw [hhead] at hdefinition
    exact ⟨q, inDefinition_of_prefix List.prefix_rfl hv (by rw [hv]; rfl) hdefinition⟩
  · -- An instance is no definition, whatever it was made from.
    rw [hhead] at hdefinition
    cases hdefinition

end Handoff.Tag
