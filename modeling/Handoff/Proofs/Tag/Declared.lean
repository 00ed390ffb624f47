/-
# Handoff.Proofs.Tag.Declared — putting declared components into a tree

The search for declared components meets a tag in one of three ways: it leaves an instance with all that is
below it, it replaces a tag by the first component that is declared for it, or it keeps the tag and goes on with
its children. Here these are three equations, and later modules do not unfold the search. Two lists of components
are put in one after the other as if they were one list: what the first search has put in is an instance, so the
second leaves it, and what the first has kept is searched anew under the same names.
-/

import Handoff.Proofs.Tag.Tree
import Handoff.Tag.Component

namespace Handoff.Tag

variable {components : List UserComponent} {t u : Tag} {p : List Nat}

/-! ## The search -/

theorem substituteList_eq_map (ts : List Tag) :
    substituteList components ts = ts.map (substitute components) := by
  induction ts with
  | nil => rw [substituteList, List.map_nil]
  | cons t ts ih => rw [substituteList, List.map_cons, ih]

/-- The root is kept, and its children are searched. -/
theorem identify_eq (components : List UserComponent) (t : Tag) :
    identify components t = ⟨t.head, t.children.map (substitute components)⟩ := by
  obtain ⟨head, children⟩ := t
  rw [identify, substituteList_eq_map]

theorem substitute_of_isInstance (h : t.head.isInstance) : substitute components t = t := by
  obtain ⟨head, children⟩ := t
  rw [substitute]
  exact if_pos h

theorem substitute_of_find?_eq_some {c : UserComponent} (h : ¬t.head.isInstance)
    (hfound : components.find? t.head.isDeclaredBy = some c) :
    substitute components t = ⟨t.head.instantiate c, []⟩ := by
  obtain ⟨head, children⟩ := t
  rw [substitute, if_neg h, show components.find? head.isDeclaredBy = some c from hfound]

theorem substitute_of_find?_eq_none (h : ¬t.head.isInstance)
    (hnone : components.find? t.head.isDeclaredBy = none) :
    substitute components t = ⟨t.head, t.children.map (substitute components)⟩ := by
  obtain ⟨head, children⟩ := t
  rw [substitute, if_neg h, show components.find? head.isDeclaredBy = none from hnone, substituteList_eq_map]

/-- A tag below the root stays as it is, becomes an instance without children, or has its children
searched. -/
theorem substitute_cases (components : List UserComponent) (t : Tag) :
    (t.head.isInstance ∧ substitute components t = t) ∨
    (¬t.head.isInstance ∧ ∃ c, components.find? t.head.isDeclaredBy = some c ∧
      substitute components t = ⟨t.head.instantiate c, []⟩) ∨
    (¬t.head.isInstance ∧ components.find? t.head.isDeclaredBy = none ∧
      substitute components t = ⟨t.head, t.children.map (substitute components)⟩) := by
  by_cases h : t.head.isInstance
  · exact .inl ⟨h, substitute_of_isInstance h⟩
  · cases hfound : components.find? t.head.isDeclaredBy with
    | some c => exact .inr (.inl ⟨h, c, rfl, substitute_of_find?_eq_some h hfound⟩)
    | none => exact .inr (.inr ⟨h, rfl, substitute_of_find?_eq_none h hfound⟩)

/-! ## Positions behind the search -/

/-- What stands below a tag whose children are replaced stands below what replaces one of them. -/
theorem at?_map_cons {g : Tag → Tag} {head : Head} {children : List Tag} {i : Nat} :
    at? ⟨head, children.map g⟩ (i :: p) = some u ↔
      ∃ child, children[i]? = some child ∧ (g child).at? p = some u := by
  rw [at?_cons_eq_some_iff, List.getElem?_map]
  constructor
  · rintro ⟨new, hnew, hu⟩
    obtain ⟨child, hchild, rfl⟩ := Option.map_eq_some_iff.mp hnew
    exact ⟨child, hchild, hu⟩
  · rintro ⟨child, hchild, hu⟩
    exact ⟨g child, by rw [hchild, Option.map_some], hu⟩

/-- What stands at a position after the search stood there before, or is an instance in its place. -/
theorem of_substitute_at (h : (substitute components t).at? p = some u) :
    ∃ v, t.at? p = some v ∧ (u.head = v.head ∨ ∃ c ∈ components, u.head = v.head.instantiate c) := by
  induction p generalizing t with
  | nil =>
    cases h
    refine ⟨t, rfl, ?_⟩
    rcases substitute_cases components t with ⟨-, hsame⟩ | ⟨-, c, hc, hnew⟩ | ⟨-, -, hsearched⟩
    · exact .inl (by rw [hsame])
    · exact .inr ⟨c, List.mem_of_find?_eq_some hc, by rw [hnew]⟩
    · exact .inl (by rw [hsearched])
  | cons i p ih =>
    rcases substitute_cases components t with ⟨-, hsame⟩ | ⟨-, c, -, hnew⟩ | ⟨-, -, hsearched⟩
    · exact ⟨u, hsame ▸ h, .inl rfl⟩
    · -- An instance has lost what was below it.
      rw [hnew, at?_cons_eq_some_iff] at h
      obtain ⟨child, hchild, -⟩ := h
      cases hchild
    · rw [hsearched, at?_map_cons] at h
      obtain ⟨child, hchild, hu⟩ := h
      obtain ⟨v, hv, hhead⟩ := ih hu
      exact ⟨v, at?_cons_eq_some_iff.mpr ⟨child, hchild, hv⟩, hhead⟩

/-- The same below the root, which itself is never replaced. -/
theorem of_identify_at (h : (identify components t).at? p = some u) :
    ∃ v, t.at? p = some v ∧ (u.head = v.head ∨ ∃ c ∈ components, u.head = v.head.instantiate c) := by
  rw [identify_eq] at h
  cases p with
  | nil =>
    cases h
    exact ⟨t, rfl, .inl rfl⟩
  | cons i p =>
    rw [at?_map_cons] at h
    obtain ⟨child, hchild, hu⟩ := h
    obtain ⟨v, hv, hhead⟩ := of_substitute_at hu
    exact ⟨v, at?_cons_eq_some_iff.mpr ⟨child, hchild, hv⟩, hhead⟩

/-! ## Several lists of components -/

/-- Two searches with one list behind the other replace what one search with both lists replaces. -/
theorem substitute_substitute (components more : List UserComponent) (t : Tag) :
    substitute more (substitute components t) = substitute (components ++ more) t := by
  induction t using induction_on_children with
  | step head children ih =>
    rcases substitute_cases components ⟨head, children⟩ with
      ⟨hinstance, hsame⟩ | ⟨hplain, c, hc, hnew⟩ | ⟨hplain, hnone, hsearched⟩
    · rw [hsame, substitute_of_isInstance hinstance, substitute_of_isInstance hinstance]
    · have hboth : (components ++ more).find? head.isDeclaredBy = some c := by
        rw [List.find?_append, hc, Option.some_or]
      -- The second search leaves the instance that the first one has put in.
      rw [hnew, substitute_of_isInstance rfl, substitute_of_find?_eq_some hplain hboth]
    · have hboth : (components ++ more).find? head.isDeclaredBy = more.find? head.isDeclaredBy := by
        rw [List.find?_append, hnone, Option.none_or]
      rw [hsearched]
      rcases substitute_cases more ⟨head, children.map (substitute components)⟩ with
        ⟨hinstance, -⟩ | ⟨-, d, hd, hnew⟩ | ⟨-, hnone', hsearched'⟩
      · exact absurd hinstance hplain
      · rw [hnew, substitute_of_find?_eq_some hplain (hboth.trans hd)]
      · rw [hsearched', substitute_of_find?_eq_none hplain (hboth.trans hnone'), List.map_map]
        exact congrArg (mk head) (List.map_congr_left ih)

/-- The search depends on a list of components by what is found in it first. -/
theorem substitute_congr {components' : List UserComponent}
    (h : ∀ head : Head, components'.find? head.isDeclaredBy = components.find? head.isDeclaredBy) (t : Tag) :
    substitute components' t = substitute components t := by
  induction t using induction_on_children with
  | step head children ih =>
    rcases substitute_cases components ⟨head, children⟩ with
      ⟨hinstance, hsame⟩ | ⟨hplain, c, hc, hnew⟩ | ⟨hplain, hnone, hsearched⟩
    · rw [hsame, substitute_of_isInstance hinstance]
    · rw [hnew, substitute_of_find?_eq_some hplain ((h head).trans hc)]
    · rw [hsearched, substitute_of_find?_eq_none hplain ((h head).trans hnone)]
      exact congrArg (mk head) (List.map_congr_left ih)

theorem identify_congr {components' : List UserComponent}
    (h : ∀ head : Head, components'.find? head.isDeclaredBy = components.find? head.isDeclaredBy) (t : Tag) :
    identify components' t = identify components t := by
  rw [identify_eq, identify_eq]
  exact congrArg (mk t.head) (List.map_congr_left fun u _ => substitute_congr h u)

/-- Whether a component is declared for a tag depends on the component's name. -/
theorem Head.isDeclaredBy_congr {c d : UserComponent} (h : c.name = d.name) (head : Head) :
    head.isDeclaredBy c = head.isDeclaredBy d := by
  rw [isDeclaredBy, isDeclaredBy, h]

/-- What is found first is found among the components that are the first of their name. -/
theorem find?_isDeclaredBy_eraseDupsBy (components : List UserComponent) (head : Head) :
    (components.eraseDupsBy fun c d => c.name == d.name).find? head.isDeclaredBy =
      components.find? head.isDeclaredBy := by
  match components with
  | [] => rfl
  | c :: rest =>
    rw [List.eraseDupsBy_cons, List.find?_cons, List.find?_cons, find?_isDeclaredBy_eraseDupsBy,
      List.find?_filter]
    split
    next => rfl
    next hc =>
      -- A component that is declared has another name than this one, which is not.
      refine congrArg (List.find? · rest) (funext fun d => ?_)
      by_cases hname : d.name = c.name
      · simp [hname, Head.isDeclaredBy_congr hname, hc]
      · simp [hname]
termination_by components.length
decreasing_by exact Nat.lt_succ_of_le (List.length_filter_le _ _)

/-- **Declared components act on trees by appending.** Putting one list of components into a tree and then
another is putting in the two lists as one. So a list that was put in changes nothing when it is put in again,
and of several components with one name only the first counts. -/
theorem identify_identify (components more : List UserComponent) (t : Tag) :
    (t.identify components).identify more = t.identify (components ++ more) ∧
      (t.identify components).identify components = t.identify components ∧
      t.identify (components.eraseDupsBy fun c d => c.name == d.name) = t.identify components := by
  have happend (more : List UserComponent) :
      (t.identify components).identify more = t.identify (components ++ more) := by
    rw [identify_eq, identify_eq, identify_eq, List.map_map]
    exact congrArg (mk t.head) (List.map_congr_left fun u _ => substitute_substitute components more u)
  refine ⟨happend more, ?_, identify_congr (find?_isDeclaredBy_eraseDupsBy components) t⟩
  rw [happend]
  refine identify_congr (fun head => ?_) t
  rw [List.find?_append, Option.or_self]

end Handoff.Tag
