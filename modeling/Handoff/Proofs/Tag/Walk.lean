/-
# Handoff.Proofs.Tag.Walk — a walk is the pre-order of its tree

A walk does not recurse on the tree: all that it has is its stack, and the children of a tag go on it from the
last to the first. What carries every statement is the forest on the stack. Read from the top down, the
pre-orders of the stacked tags are what the walk still yields; a step yields the first tag of that and leaves
the others, and it makes the forest, though not always the stack, smaller by one tag.

Equal tags may stand in one tree more than once, so that each of them is visited once is said of positions. The
order in which pre-order takes them is the lexicographic one.
-/

import Handoff.Proofs.Tag.Tree

namespace Handoff.Tag

variable {t : Tag} {stack rest : List Tag}

/-! ## One step -/

theorem next?_eq_none_iff : next? stack = none ↔ stack = [] := by
  cases stack with
  | nil => exact ⟨fun _ => rfl, fun _ => rfl⟩
  | cons t stack => exact ⟨nofun, nofun⟩

/-- A step yields the first tag of the forest on the stack and leaves the others. -/
theorem preorderList_of_next? (h : next? stack = some (t, rest)) :
    preorderList stack = t :: preorderList rest := by
  cases stack with
  | nil => cases h
  | cons u us =>
    rw [next?_cons] at h
    cases h
    rw [preorderList, preorder_eq_cons, preorderList_append, List.cons_append]

theorem map_fst_next? (stack : List Tag) : (next? stack).map Prod.fst = (preorderList stack).head? := by
  cases h : next? stack with
  | none =>
    rw [next?_eq_none_iff.mp h]
    rfl
  | some step => rw [preorderList_of_next? h, List.head?_cons, Option.map_some]

/-! ## All steps -/

theorem walk_eq_preorderList (stack : List Tag) : walk stack = preorderList stack := by
  fun_induction walk stack with
  | case1 stack h =>
    rw [next?_eq_none_iff.mp h]
    rfl
  | case2 stack t rest h ih => rw [preorderList_of_next? h, ih]

/-- A walk has as many steps as there are tags in the trees on its stack. -/
theorem length_walk (stack : List Tag) : (walk stack).length = countList stack := by
  fun_induction walk stack with
  | case1 stack h =>
    rw [next?_eq_none_iff.mp h]
    rfl
  | case2 stack t rest h ih => rw [List.length_cons, ih, countList_of_next? h]

theorem walk_singleton (t : Tag) : walk [t] = t.preorder := by
  rw [walk_eq_preorderList, preorderList, preorderList, List.append_nil]

theorem length_preorder (t : Tag) : t.preorder.length = t.count := by
  rw [← walk_singleton, length_walk, countList, countList, Nat.add_zero]

/-! ## Some steps -/

/-- The stack of a walk after some steps. A walk that has ended stays as it is. -/
def stackAfter : Nat → List Tag → List Tag
  | 0, stack => stack
  | steps + 1, stack =>
    match next? stack with
    | none => stack
    | some (_, rest) => stackAfter steps rest

/-- After some steps that many tags are gone from the front of the forest. -/
theorem preorderList_stackAfter (steps : Nat) (stack : List Tag) :
    preorderList (stackAfter steps stack) = (preorderList stack).drop steps := by
  induction steps generalizing stack with
  | zero => rfl
  | succ steps ih =>
    rw [stackAfter]
    cases h : next? stack with
    | none =>
      rw [next?_eq_none_iff.mp h]
      rfl
    | some step => rw [ih, preorderList_of_next? h, List.drop_succ_cons]

/-- How a walk through a tree stands after some steps. -/
structure StandsAfter (t : Tag) (steps : Nat) (stack : List Tag) : Prop where
  /-- The pre-orders of the stacked tags, from the top of the stack down, are the tags still to be yielded. -/
  remaining : walk stack = stack.flatMap preorder
  /-- They are the tags of the tree in pre-order without the first ones, one for each step. -/
  gone : stack.flatMap preorder = t.preorder.drop steps
  /-- The next step yields the tag that comes next in pre-order. -/
  upcoming : (next? stack).map Prod.fst = t.preorder[steps]?
  /-- The walk has ended exactly if there were as many steps as there are tags. -/
  ended : next? stack = none ↔ t.count ≤ steps

theorem standsAfter_stackAfter (t : Tag) (steps : Nat) : StandsAfter t steps (stackAfter steps [t]) := by
  have hforest : preorderList (stackAfter steps [t]) = t.preorder.drop steps := by
    rw [preorderList_stackAfter, preorderList, preorderList, List.append_nil]
  have hupcoming : (next? (stackAfter steps [t])).map Prod.fst = t.preorder[steps]? := by
    rw [map_fst_next?, hforest, List.head?_drop]
  constructor
  case remaining => rw [walk_eq_preorderList, preorderList_eq_flatMap]
  case gone => rw [← preorderList_eq_flatMap, hforest]
  case upcoming => exact hupcoming
  case ended =>
    rw [← Option.map_eq_none_iff, hupcoming, List.getElem?_eq_none_iff, length_preorder]

/-! ## Every position once -/

mutual

/-- The positions in a tag tree, in the order in which pre-order visits them. -/
def positions : Tag → List (List Nat)
  | ⟨_, children⟩ => [] :: positionsOfList 0 children

/-- The positions among siblings and below them, if the first sibling has the given place. -/
def positionsOfList (place : Nat) : List Tag → List (List Nat)
  | [] => []
  | t :: ts => t.positions.map (place :: ·) ++ positionsOfList (place + 1) ts

end

theorem positions_eq_cons (t : Tag) : t.positions = [] :: positionsOfList 0 t.children := by
  obtain ⟨head, children⟩ := t
  rw [positions]

theorem mem_positionsOfList_iff {place : Nat} {ts : List Tag} {p : List Nat} :
    p ∈ positionsOfList place ts ↔
      ∃ i child q, ts[i]? = some child ∧ q ∈ child.positions ∧ p = (place + i) :: q := by
  induction ts generalizing place with
  | nil => simp [positionsOfList]
  | cons t ts ih =>
    rw [positionsOfList, List.mem_append, List.mem_map, ih]
    constructor
    · rintro (⟨q, hq, rfl⟩ | ⟨i, child, q, hchild, hq, rfl⟩)
      · exact ⟨0, t, q, rfl, hq, rfl⟩
      · exact ⟨i + 1, child, q, hchild, hq, by rw [Nat.add_assoc, Nat.add_comm 1]⟩
    · rintro ⟨i, child, q, hchild, hq, rfl⟩
      cases i with
      | zero =>
        cases hchild
        exact .inl ⟨q, hq, rfl⟩
      | succ i => exact .inr ⟨i, child, q, hchild, hq, by rw [Nat.add_assoc, Nat.add_comm 1]⟩

theorem mem_positions_iff {p : List Nat} : p ∈ t.positions ↔ ∃ u, t.at? p = some u := by
  induction p generalizing t with
  | nil =>
    rw [positions_eq_cons]
    exact ⟨fun _ => ⟨t, rfl⟩, fun _ => List.mem_cons_self⟩
  | cons i p ih =>
    rw [positions_eq_cons, List.mem_cons, mem_positionsOfList_iff]
    simp only [at?_cons_eq_some_iff, Nat.zero_add, List.cons.injEq, reduceCtorEq, false_or]
    constructor
    · rintro ⟨_, child, _, hchild, hp, rfl, rfl⟩
      obtain ⟨u, hu⟩ := ih.mp hp
      exact ⟨u, child, hchild, hu⟩
    · rintro ⟨u, child, hchild, hu⟩
      exact ⟨i, child, p, hchild, ih.mpr ⟨u, hu⟩, rfl, rfl⟩

theorem pairwise_positionsOfList {ts : List Tag} (h : ∀ t ∈ ts, t.positions.Pairwise (· < ·))
    (place : Nat) : (positionsOfList place ts).Pairwise (· < ·) := by
  induction ts generalizing place with
  | nil => exact .nil
  | cons t ts ih =>
    rw [positionsOfList, List.pairwise_append, List.pairwise_map]
    refine ⟨(h t List.mem_cons_self).imp List.cons_lt_cons_self.mpr,
      ih (fun u hu => h u (List.mem_cons_of_mem t hu)) (place + 1), ?_⟩
    -- What is at or below a later sibling has the larger place in front.
    intro p hp q hq
    obtain ⟨p, -, rfl⟩ := List.mem_map.mp hp
    obtain ⟨i, -, q, -, -, rfl⟩ := mem_positionsOfList_iff.mp hq
    exact List.cons_lt_cons_iff.mpr (.inl (by omega))

/-- Pre-order takes the positions in lexicographic order, so it takes none of them twice. -/
theorem pairwise_positions (t : Tag) : t.positions.Pairwise (· < ·) := by
  induction t using induction_on_children with
  | step head children ih =>
    rw [positions_eq_cons, List.pairwise_cons]
    refine ⟨fun p hp => ?_, pairwise_positionsOfList ih 0⟩
    obtain ⟨i, -, q, -, -, rfl⟩ := mem_positionsOfList_iff.mp hp
    exact List.nil_lt_cons _ _

/-- The positions among the last children of a tag hold what pre-order visits there. -/
theorem map_at?_positionsOfList {ts : List Tag}
    (h : ∀ u ∈ ts, u.positions.map u.at? = u.preorder.map some) (front : List Tag)
    (ht : t.children = front ++ ts) :
    (positionsOfList front.length ts).map t.at? = (preorderList ts).map some := by
  induction ts generalizing front with
  | nil => rfl
  | cons u us ih =>
    have hplace : t.children[front.length]? = some u := by
      rw [ht, List.getElem?_append_right (Nat.le_refl _), Nat.sub_self, List.getElem?_cons_zero]
    have hbelow : t.at? ∘ (front.length :: ·) = u.at? := by
      funext p
      show t.at? (front.length :: p) = u.at? p
      rw [at?, hplace, Option.bind_some]
    have hrest : (positionsOfList (front.length + 1) us).map t.at? = (preorderList us).map some := by
      have hlength : (front ++ [u]).length = front.length + 1 := List.length_append
      rw [← hlength]
      exact ih (fun v hv => h v (List.mem_cons_of_mem u hv)) (front ++ [u]) (by rw [ht, List.append_cons])
    rw [positionsOfList, preorderList, List.map_append, List.map_append, List.map_map, hbelow,
      h u List.mem_cons_self, hrest]

/-- The tags at the positions are the pre-order. -/
theorem map_at?_positions (t : Tag) : t.positions.map t.at? = t.preorder.map some := by
  induction t using induction_on_children with
  | step head children ih =>
    rw [positions_eq_cons, preorder_eq_cons, List.map_cons, List.map_cons]
    exact congrArg _ (map_at?_positionsOfList ih [] rfl)

theorem length_positions (t : Tag) : t.positions.length = t.count := by
  rw [← length_preorder, ← List.length_map t.at?, map_at?_positions, List.length_map]

/-! ## Searching by name -/

/-- Whether there is a tag at the position and it has the name. -/
def isNamedAt (t : Tag) (name : String) (p : List Nat) : Bool :=
  (t.at? p).any fun u => u.name == name

theorem isNamedAt_iff {name : String} {p : List Nat} :
    t.isNamedAt name p ↔ ∃ u, t.at? p = some u ∧ u.name = name := by
  rw [isNamedAt, Option.any_eq_true]
  simp only [beq_iff_eq]

theorem find?_eq_find?_preorder (t : Tag) (name : String) :
    t.find? name = t.preorder.find? fun u => u.name == name := by
  rw [find?, walk_singleton]

/-- A search for a tag is a search for its position. -/
theorem find?_eq_bind_at? (t : Tag) (name : String) :
    t.find? name = (t.positions.find? (t.isNamedAt name)).bind t.at? := by
  calc t.find? name
      = ((t.preorder.map some).find? (Option.any fun u => u.name == name)).bind id := by
        rw [find?_eq_find?_preorder, List.find?_map, Option.bind_map]
        exact (Option.bind_fun_some _).symm
    _ = ((t.positions.map t.at?).find? (Option.any fun u => u.name == name)).bind id := by
        rw [map_at?_positions]
    _ = (t.positions.find? (t.isNamedAt name)).bind t.at? := by
        rw [List.find?_map, Option.bind_map]
        rfl

/-- The first of some ordered positions that satisfies a condition is the least one that does. -/
theorem find?_eq_some_iff_of_pairwise {ps : List (List Nat)} (hps : ps.Pairwise (· < ·))
    {holds : List Nat → Bool} {p : List Nat} :
    ps.find? holds = some p ↔ p ∈ ps ∧ holds p ∧ ∀ q ∈ ps, q < p → ¬holds q := by
  induction ps with
  | nil => simp
  | cons r ps ih =>
    obtain ⟨hr, hps⟩ := List.pairwise_cons.mp hps
    by_cases hholds : holds r
    · rw [List.find?_cons_of_pos hholds, Option.some.injEq]
      constructor
      · rintro rfl
        refine ⟨List.mem_cons_self, hholds, fun q hq hlt => ?_⟩
        rcases List.mem_cons.mp hq with rfl | hq
        · exact absurd hlt (List.lt_irrefl q)
        · exact absurd hlt (List.lt_asymm (hr q hq))
      · rintro ⟨hp, -, hleast⟩
        rcases List.mem_cons.mp hp with rfl | hp
        · rfl
        · exact absurd hholds (hleast r List.mem_cons_self (hr p hp))
    · rw [List.find?_cons_of_neg hholds, ih hps]
      constructor
      · rintro ⟨hp, hholdsp, hleast⟩
        exact ⟨List.mem_cons_of_mem r hp, hholdsp, List.forall_mem_cons.mpr ⟨fun _ => hholds, hleast⟩⟩
      · rintro ⟨hp, hholdsp, hleast⟩
        rcases List.mem_cons.mp hp with rfl | hp
        · exact absurd hholdsp hholds
        · exact ⟨hp, hholdsp, (List.forall_mem_cons.mp hleast).2⟩

/-- A search finds the tag at the first position where one has the name. -/
theorem find?_eq_some_iff {name : String} {u : Tag} :
    t.find? name = some u ↔
      ∃ p, t.at? p = some u ∧ u.name = name ∧ ∀ q v, q < p → t.at? q = some v → v.name ≠ name := by
  rw [find?_eq_bind_at?, Option.bind_eq_some_iff]
  simp only [find?_eq_some_iff_of_pairwise t.pairwise_positions, mem_positions_iff, isNamedAt_iff]
  constructor
  · rintro ⟨p, ⟨-, ⟨u', hu', hname⟩, hfirst⟩, hu⟩
    obtain rfl : u' = u := Option.some.inj (hu'.symm.trans hu)
    exact ⟨p, hu, hname, fun q v hlt hv hv' => hfirst q ⟨v, hv⟩ hlt ⟨v, hv, hv'⟩⟩
  · rintro ⟨p, hu, hname, hfirst⟩
    exact ⟨p, ⟨⟨u, hu⟩, ⟨u, hu, hname⟩, fun q _ hlt ⟨v, hv, hv'⟩ => hfirst q v hlt hv hv'⟩, hu⟩

/-- A search finds nothing exactly if no tag of the tree has the name. -/
theorem find?_eq_none_iff {name : String} :
    t.find? name = none ↔ ∀ p u, t.at? p = some u → u.name ≠ name := by
  rw [find?_eq_find?_preorder, List.find?_eq_none]
  simp only [beq_iff_eq]
  constructor
  · exact fun h p u hu => h u (mem_preorder_of_at? hu)
  · intro h u hu
    obtain ⟨p, hp⟩ := exists_at?_of_mem_preorder hu
    exact h p u hp

/-! ## The walk -/

/-- **A walk is the pre-order of its tree.** A walk from the root yields the root and then the pre-order of each
child in turn. These are the tags at the positions of the tree, each position taken once and in lexicographic order,
and there are as many as the tree has tags. However many steps were taken, the pre-orders of the tags on the stack,
from the top down, are what is still to be yielded, and the walk ends when every tag was yielded. A search by name
therefore finds the first tag in pre-order that has the name, and nothing exactly if no tag of the tree has it. -/
theorem walk_visits_preorder (t : Tag) :
    (walk [t] = t.preorder ∧ t.preorder = t :: t.children.flatMap preorder) ∧
    ((walk [t]).map some = t.positions.map t.at? ∧ t.positions.Pairwise (· < ·) ∧
      (∀ p, p ∈ t.positions ↔ ∃ u, t.at? p = some u) ∧ t.positions.length = t.count) ∧
    (∀ steps, StandsAfter t steps (stackAfter steps [t])) ∧
    ∀ name,
      t.find? name = t.preorder.find? (fun u => u.name == name) ∧
      (∀ u, t.find? name = some u ↔
        ∃ p, t.at? p = some u ∧ u.name = name ∧ ∀ q v, q < p → t.at? q = some v → v.name ≠ name) ∧
      (t.find? name = none ↔ ∀ p u, t.at? p = some u → u.name ≠ name) := by
  refine ⟨⟨walk_singleton t, ?_⟩, ⟨?_, t.pairwise_positions, fun p => mem_positions_iff, t.length_positions⟩,
    t.standsAfter_stackAfter, fun name => ⟨t.find?_eq_find?_preorder name, fun u => find?_eq_some_iff,
    find?_eq_none_iff⟩⟩
  · rw [preorder_eq_cons, preorderList_eq_flatMap]
  · rw [walk_singleton, map_at?_positions]

/-- The stack grows at the root, and the tag below the first child comes ahead of the second child. -/
example : (walk [⟨{ name := "root", source := default },
    [⟨{ name := "a", source := default }, [⟨{ name := "a1", source := default }, []⟩]⟩,
      ⟨{ name := "b", source := default }, []⟩]⟩]).map name = ["root", "a", "a1", "b"] := by
  cbv

end Handoff.Tag
