/-
# Handoff.Proofs.Tag.Position — positions in a tag tree

Equal tags may stand in one tree more than once, so a statement about *the* tag at some place needs the
place itself. A position is the list of sibling indices on the way down from the root. `before` lists the
tags that pre-order visits ahead of a position, and `preorder_eq_before_append` is the licence for that
name. Of two different positions one is visited ahead of the other.
-/

import Handoff.Tag.Walk

namespace Handoff.Tag

/-! ## Pre-order -/

theorem preorder_eq_cons (t : Tag) : t.preorder = t :: preorderList t.children := by
  cases t with
  | mk head children => rw [preorder]

theorem preorderList_append (ts us : List Tag) :
    preorderList (ts ++ us) = preorderList ts ++ preorderList us := by
  induction ts with
  | nil => rw [preorderList, List.nil_append, List.nil_append]
  | cons t ts ih => rw [List.cons_append, preorderList, preorderList, ih, List.append_assoc]

/-- A list of siblings visits those in front of a place, the one there, and those behind it. -/
theorem preorderList_eq_of_getElem? {ts : List Tag} {i : Nat} {t : Tag} (h : ts[i]? = some t) :
    preorderList ts = preorderList (ts.take i) ++ (t.preorder ++ preorderList (ts.drop (i + 1))) := by
  obtain ⟨hi, rfl⟩ := List.getElem?_eq_some_iff.mp h
  rw [← preorderList, ← preorderList_append, List.getElem_cons_drop, List.take_append_drop]

/-! ## Positions -/

/-- The tag at a position, if there is one. -/
def at? : Tag → List Nat → Option Tag
  | t, [] => some t
  | t, i :: p => t.children[i]?.bind fun child => child.at? p

/-- The tags that pre-order visits ahead of a position. -/
def before : Tag → List Nat → List Tag
  | _, [] => []
  | t, i :: p =>
    t :: (preorderList (t.children.take i) ++
      match t.children[i]? with
      | some child => child.before p
      | none => [])

theorem at?_cons_eq_some_iff {t u : Tag} {i : Nat} {p : List Nat} :
    t.at? (i :: p) = some u ↔ ∃ child, t.children[i]? = some child ∧ child.at? p = some u := by
  rw [at?, Option.bind_eq_some_iff]

/-- What stands at a position below the root is a child of the tag above it. -/
theorem at?_append_singleton_eq_some_iff {t u : Tag} {i : Nat} {p : List Nat} :
    t.at? (p ++ [i]) = some u ↔ ∃ parent, t.at? p = some parent ∧ parent.children[i]? = some u := by
  induction p generalizing t with
  | nil => simp [at?]
  | cons j p ih =>
    rw [List.cons_append, at?_cons_eq_some_iff]
    simp only [ih, at?_cons_eq_some_iff]
    constructor
    · rintro ⟨child, hchild, parent, hparent, hu⟩
      exact ⟨parent, ⟨child, hchild, hparent⟩, hu⟩
    · rintro ⟨parent, ⟨child, hchild, hparent⟩, hu⟩
      exact ⟨child, hchild, parent, hparent, hu⟩

theorem before_cons {t child : Tag} {i : Nat} (h : t.children[i]? = some child) (p : List Nat) :
    t.before (i :: p) = t :: (preorderList (t.children.take i) ++ child.before p) := by
  rw [before, h]

/-- Pre-order visits what stands before a position, then the tree at it, and then the rest. -/
theorem preorder_eq_before_append {t u : Tag} {p : List Nat} (h : t.at? p = some u) :
    ∃ later, t.preorder = t.before p ++ (u.preorder ++ later) := by
  induction p generalizing t with
  | nil =>
    cases h
    exact ⟨[], by rw [before, List.nil_append, List.append_nil]⟩
  | cons i p ih =>
    obtain ⟨child, hchild, hu⟩ := at?_cons_eq_some_iff.mp h
    obtain ⟨later, hlater⟩ := ih hu
    refine ⟨later ++ preorderList (t.children.drop (i + 1)), ?_⟩
    rw [preorder_eq_cons, preorderList_eq_of_getElem? hchild, hlater, before_cons hchild]
    simp only [List.append_assoc, List.cons_append]

/-- A tag is visited in the pre-order of every tree that it stands in. -/
theorem mem_preorder_of_at? {t u : Tag} {p : List Nat} (h : t.at? p = some u) : u ∈ t.preorder := by
  obtain ⟨later, hlater⟩ := preorder_eq_before_append h
  rw [hlater, preorder_eq_cons u]
  simp

/-! ## The tags above a position -/

/-- Whether something holds of every tag above a position. -/
def AllAbove (P : Head → Prop) (t : Tag) (p : List Nat) : Prop :=
  ∀ q a, q <+: p → q ≠ p → t.at? q = some a → P a.head

/-- Whether something holds of every tag between the root and a position, both left out. -/
def AllBetween (P : Head → Prop) (t : Tag) (p : List Nat) : Prop :=
  ∀ q a, q ≠ [] → q <+: p → q ≠ p → t.at? q = some a → P a.head

theorem allAbove_nil (P : Head → Prop) (t : Tag) : t.AllAbove P [] :=
  fun _ _ hq hne _ => absurd (List.prefix_nil.mp hq) hne

/-- The root is above every other position. -/
theorem AllAbove.top {P : Head → Prop} {t : Tag} {i : Nat} {p : List Nat} (h : t.AllAbove P (i :: p)) :
    P t.head :=
  h [] t List.nil_prefix (List.cons_ne_nil i p).symm rfl

theorem allAbove_cons_iff {P : Head → Prop} {t child : Tag} {i : Nat} {p : List Nat}
    (hchild : t.children[i]? = some child) :
    t.AllAbove P (i :: p) ↔ P t.head ∧ child.AllAbove P p := by
  constructor
  · intro h
    refine ⟨h.top, fun q a hq hne ha => ?_⟩
    exact h (i :: q) a (List.cons_prefix_cons.mpr ⟨rfl, hq⟩) (fun heq => hne (List.cons.inj heq).2)
      (at?_cons_eq_some_iff.mpr ⟨child, hchild, ha⟩)
  · rintro ⟨htop, hbelow⟩ q a hq hne ha
    cases q with
    | nil =>
      cases ha
      exact htop
    | cons j q =>
      obtain ⟨rfl, hbegin⟩ := List.cons_prefix_cons.mp hq
      obtain ⟨child', hchild', ha⟩ := at?_cons_eq_some_iff.mp ha
      obtain rfl : child = child' := Option.some.inj (hchild.symm.trans hchild')
      exact hbelow q a hbegin (fun heq => hne (congrArg (j :: ·) heq)) ha

/-- What is between the root and a position is above it in the child that it stands in. -/
theorem allBetween_cons_iff {P : Head → Prop} {t child : Tag} {i : Nat} {p : List Nat}
    (hchild : t.children[i]? = some child) : t.AllBetween P (i :: p) ↔ child.AllAbove P p := by
  constructor
  · intro h q a hq hne ha
    exact h (i :: q) a (List.cons_ne_nil i q) (List.cons_prefix_cons.mpr ⟨rfl, hq⟩)
      (fun heq => hne (List.cons.inj heq).2) (at?_cons_eq_some_iff.mpr ⟨child, hchild, ha⟩)
  · intro h q a hnil hq hne ha
    cases q with
    | nil => exact absurd rfl hnil
    | cons j q =>
      obtain ⟨rfl, hbegin⟩ := List.cons_prefix_cons.mp hq
      obtain ⟨child', hchild', ha⟩ := at?_cons_eq_some_iff.mp ha
      obtain rfl : child = child' := Option.some.inj (hchild.symm.trans hchild')
      exact h q a hbegin (fun heq => hne (congrArg (j :: ·) heq)) ha

/-! ## The order of positions -/

/-- What stands in front of a position, with the tag there, is visited ahead of any place at a later
sibling. -/
theorem before_prefix_of_lt {t u v : Tag} {i j : Nat} {p q : List Nat} (hlt : i < j)
    (hu : t.at? (i :: p) = some u) (hv : t.at? (j :: q) = some v) :
    t.before (i :: p) ++ [u] <+: t.before (j :: q) := by
  obtain ⟨left, hleft, hu⟩ := at?_cons_eq_some_iff.mp hu
  obtain ⟨right, hright, -⟩ := at?_cons_eq_some_iff.mp hv
  obtain ⟨later, hlater⟩ := preorder_eq_before_append hu
  -- The tree on the left is among the siblings that are visited whole before the right one.
  have htake : (t.children.take j)[i]? = some left := by rw [List.getElem?_take_of_lt hlt, hleft]
  have hfront : preorderList (t.children.take j) = preorderList (t.children.take i) ++
      (left.preorder ++ preorderList ((t.children.take j).drop (i + 1))) := by
    rw [preorderList_eq_of_getElem? htake, List.take_take, Nat.min_eq_left (Nat.le_of_lt hlt)]
  rw [before_cons hleft, before_cons hright, hfront, hlater, preorder_eq_cons u]
  refine ⟨preorderList u.children ++ later ++ preorderList ((t.children.take j).drop (i + 1)) ++
    right.before q, ?_⟩
  simp only [List.append_assoc, List.cons_append, List.nil_append]

/-- Of two different positions one is visited, with its tag, ahead of the other. -/
theorem before_prefix_or {t u v : Tag} {p q : List Nat} (hne : p ≠ q) (hu : t.at? p = some u)
    (hv : t.at? q = some v) :
    t.before p ++ [u] <+: t.before q ∨ t.before q ++ [v] <+: t.before p := by
  induction p generalizing t q with
  | nil =>
    cases q with
    | nil => exact absurd rfl hne
    | cons j q =>
      cases hu
      exact .inl ⟨_, rfl⟩
  | cons i p ih =>
    cases q with
    | nil =>
      cases hv
      exact .inr ⟨_, rfl⟩
    | cons j q =>
      rcases Nat.lt_trichotomy i j with hlt | rfl | hgt
      · exact .inl (before_prefix_of_lt hlt hu hv)
      · obtain ⟨child, hchild, hu⟩ := at?_cons_eq_some_iff.mp hu
        obtain ⟨child', hchild', hv⟩ := at?_cons_eq_some_iff.mp hv
        obtain rfl : child = child' := Option.some.inj (hchild.symm.trans hchild')
        have hne : p ≠ q := fun h => hne (congrArg (i :: ·) h)
        rw [before_cons hchild, before_cons hchild, List.cons_append, List.cons_append,
          List.append_assoc, List.append_assoc, List.cons_prefix_cons, List.cons_prefix_cons,
          List.prefix_append_right_inj, List.prefix_append_right_inj]
        exact (ih hne hu hv).imp (⟨rfl, ·⟩) (⟨rfl, ·⟩)
      · exact .inr (before_prefix_of_lt hgt hv hu)

end Handoff.Tag
