/-
# Handoff.Proofs.Tag.Replaced — which tags the declared components replace

The search goes down from the root and ends at instances and at tags for which a component is declared. So it
reaches a tag if there is no tag of these two kinds between the root and it, and of the tags that it reaches it
replaces those for which a component is declared and which are no instances. `inReplaced` computes whether a
position is at or below a replaced tag, and `inReplaced_iff` is the licence for that name.
`ReplacesOutermost` says what becomes of the tag at each position of a tree.
-/

import Handoff.Proofs.Tag.Declared

namespace Handoff.Tag

variable {components : List UserComponent} {t u : Tag} {i : Nat} {p : List Nat}

/-! ## The tags that the search reaches -/

/-- Whether a component is declared for a tag: one that has the name of its layer or the name of the tag. -/
def Head.isDeclared (components : List UserComponent) (h : Head) : Bool :=
  components.any fun c => c.name == h.source.name || c.name == h.name

/-- Whether the search replaces a tag that it reaches. -/
def Head.isSubstituted (components : List UserComponent) (h : Head) : Bool :=
  !h.isInstance && h.isDeclared components

/-- Whether the search goes on below a tag that it reaches. -/
def Head.isSearched (components : List UserComponent) (h : Head) : Bool :=
  !h.isInstance && !h.isDeclared components

/-- Whether a search that starts at a tag itself replaces the tag at a position below. -/
def IsSubstitutedAt (components : List UserComponent) (t : Tag) (p : List Nat) : Prop :=
  t.AllAbove (fun h => h.isSearched components) p ∧
    ∃ u, t.at? p = some u ∧ u.head.isSubstituted components

/-- Whether the tag at a position is replaced. -/
def IsReplaced (components : List UserComponent) (t : Tag) (p : List Nat) : Prop :=
  p ≠ [] ∧ t.AllBetween (fun h => h.isSearched components) p ∧
    ∃ u, t.at? p = some u ∧ u.head.isSubstituted components

theorem Head.isDeclared_iff {h : Head} :
    h.isDeclared components ↔ ∃ c ∈ components, c.name = h.source.name ∨ c.name = h.name := by
  simp only [isDeclared, List.any_eq_true, Bool.or_eq_true, beq_iff_eq]

theorem Head.not_isDeclared_iff {h : Head} :
    ¬h.isDeclared components ↔ ∀ c ∈ components, c.name ≠ h.source.name ∧ c.name ≠ h.name := by
  rw [isDeclared_iff]
  constructor
  · intro hnone c hc
    exact not_or.mp fun hname => hnone ⟨c, hc, hname⟩
  · rintro hall ⟨c, hc, hname⟩
    exact not_or.mpr (hall c hc) hname

theorem Head.isSubstituted_iff {h : Head} :
    h.isSubstituted components ↔ ¬h.isInstance ∧ h.isDeclared components := by
  rw [isSubstituted, Bool.and_eq_true, Bool.not_eq_true', Bool.not_eq_true]

theorem Head.isSearched_iff {h : Head} :
    h.isSearched components ↔ ¬h.isInstance ∧ ¬h.isDeclared components := by
  rw [isSearched, Bool.and_eq_true, Bool.not_eq_true', Bool.not_eq_true', Bool.not_eq_true,
    Bool.not_eq_true]

theorem Head.isSubstituted_of_isSearched {h : Head} (hsearched : h.isSearched components) :
    h.isSubstituted components = false := by
  rw [isSubstituted, Bool.eq_false_iff.mpr (isSearched_iff.mp hsearched).2, Bool.and_false]

theorem isSubstitutedAt_nil_iff :
    IsSubstitutedAt components t [] ↔ t.head.isSubstituted components := by
  constructor
  · rintro ⟨-, u, hu, h⟩
    cases hu
    exact h
  · intro h
    exact ⟨allAbove_nil _ t, t, rfl, h⟩

theorem isSubstitutedAt_cons_iff :
    IsSubstitutedAt components t (i :: p) ↔ t.head.isSearched components ∧
      ∃ child, t.children[i]? = some child ∧ IsSubstitutedAt components child p := by
  constructor
  · rintro ⟨habove, u, hu, h⟩
    obtain ⟨child, hchild, hu⟩ := at?_cons_eq_some_iff.mp hu
    exact ⟨habove.top, child, hchild, ((allAbove_cons_iff hchild).mp habove).2, u, hu, h⟩
  · rintro ⟨hsearched, child, hchild, habove, u, hu, h⟩
    exact ⟨(allAbove_cons_iff hchild).mpr ⟨hsearched, habove⟩, u,
      at?_cons_eq_some_iff.mpr ⟨child, hchild, hu⟩, h⟩

theorem isReplaced_cons_iff :
    IsReplaced components t (i :: p) ↔
      ∃ child, t.children[i]? = some child ∧ IsSubstitutedAt components child p := by
  constructor
  · rintro ⟨-, hbetween, u, hu, h⟩
    obtain ⟨child, hchild, hu⟩ := at?_cons_eq_some_iff.mp hu
    exact ⟨child, hchild, (allBetween_cons_iff hchild).mp hbetween, u, hu, h⟩
  · rintro ⟨child, hchild, habove, u, hu, h⟩
    exact ⟨List.cons_ne_nil i p, (allBetween_cons_iff hchild).mpr habove, u,
      at?_cons_eq_some_iff.mpr ⟨child, hchild, hu⟩, h⟩

/-! ## At and below what is replaced -/

/-- Whether a position is at or below a tag that is replaced by a search which starts at the tag itself. -/
def inSubstituted (components : List UserComponent) : Tag → List Nat → Bool
  | t, [] => t.head.isSubstituted components
  | t, i :: p =>
    t.head.isSubstituted components ||
      t.head.isSearched components && t.children[i]?.any fun child => child.inSubstituted components p

/-- Whether a position is at or below a tag that is replaced. -/
def inReplaced (components : List UserComponent) (t : Tag) : List Nat → Bool
  | [] => false
  | i :: p => t.children[i]?.any fun child => child.inSubstituted components p

theorem inSubstituted_of_isSubstituted (h : t.head.isSubstituted components) (p : List Nat) :
    t.inSubstituted components p := by
  cases p with
  | nil => exact h
  | cons i p => rw [inSubstituted, h, Bool.true_or]

theorem inSubstituted_cons_of_isSearched (h : t.head.isSearched components) {child : Tag}
    (hchild : t.children[i]? = some child) :
    t.inSubstituted components (i :: p) = child.inSubstituted components p := by
  rw [inSubstituted, Head.isSubstituted_of_isSearched h, h, hchild, Bool.false_or, Bool.true_and,
    Option.any_some]

theorem inReplaced_cons {child : Tag} (hchild : t.children[i]? = some child) :
    t.inReplaced components (i :: p) = child.inSubstituted components p := by
  rw [inReplaced, hchild, Option.any_some]

theorem inSubstituted_iff :
    t.inSubstituted components p ↔ ∃ q, q <+: p ∧ IsSubstitutedAt components t q := by
  induction p generalizing t with
  | nil =>
    simp only [List.prefix_nil, exists_eq_left]
    rw [isSubstitutedAt_nil_iff, inSubstituted]
  | cons i p ih =>
    rw [inSubstituted, Bool.or_eq_true, Bool.and_eq_true, Option.any_eq_true, ← isSubstitutedAt_nil_iff]
    simp only [ih]
    constructor
    · rintro (htop | ⟨hsearched, child, hchild, q, hq, hbelow⟩)
      · exact ⟨[], List.nil_prefix, htop⟩
      · exact ⟨i :: q, List.cons_prefix_cons.mpr ⟨rfl, hq⟩,
          isSubstitutedAt_cons_iff.mpr ⟨hsearched, child, hchild, hbelow⟩⟩
    · rintro ⟨q, hq, h⟩
      rcases List.prefix_cons_iff.mp hq with rfl | ⟨q, rfl, hbegin⟩
      · exact .inl h
      · obtain ⟨hsearched, child, hchild, hbelow⟩ := isSubstitutedAt_cons_iff.mp h
        exact .inr ⟨hsearched, child, hchild, q, hbegin, hbelow⟩

theorem inReplaced_iff :
    t.inReplaced components p ↔ ∃ q, q <+: p ∧ IsReplaced components t q := by
  cases p with
  | nil =>
    simp only [List.prefix_nil, exists_eq_left]
    exact iff_of_false Bool.false_ne_true fun h => h.1 rfl
  | cons i p =>
    rw [inReplaced, Option.any_eq_true]
    simp only [inSubstituted_iff]
    constructor
    · rintro ⟨child, hchild, q, hq, h⟩
      exact ⟨i :: q, List.cons_prefix_cons.mpr ⟨rfl, hq⟩, isReplaced_cons_iff.mpr ⟨child, hchild, h⟩⟩
    · rintro ⟨q, hq, h⟩
      rcases List.prefix_cons_iff.mp hq with rfl | ⟨q, rfl, hbegin⟩
      · exact absurd rfl h.1
      · obtain ⟨child, hchild, h⟩ := isReplaced_cons_iff.mp h
        exact ⟨child, hchild, q, hbegin, h⟩

/-! ## The search at a tag -/

/-- What the search looks for is a component of one of the two names. -/
theorem Head.isSome_find? (components : List UserComponent) (h : Head) :
    (components.find? h.isDeclaredBy).isSome = h.isDeclared components := by
  rw [Bool.eq_iff_iff, List.find?_isSome, isDeclared_iff]
  simp only [isDeclaredBy, Bool.or_eq_true, beq_iff_eq]

theorem Head.find?_eq_none_iff {h : Head} :
    components.find? h.isDeclaredBy = none ↔ ¬h.isDeclared components := by
  rw [← isSome_find?, Option.not_isSome_iff_eq_none]

theorem Head.exists_find?_eq_some {h : Head} (hdeclared : h.isDeclared components) :
    ∃ c, components.find? h.isDeclaredBy = some c := by
  rwa [← Option.isSome_iff_exists, isSome_find?]

theorem substitute_of_isSearched (h : t.head.isSearched components) :
    substitute components t = ⟨t.head, t.children.map (substitute components)⟩ :=
  substitute_of_find?_eq_none (Head.isSearched_iff.mp h).1
    (Head.find?_eq_none_iff.mpr (Head.isSearched_iff.mp h).2)

theorem substitute_of_isSubstituted (h : t.head.isSubstituted components) :
    ∃ c, components.find? t.head.isDeclaredBy = some c ∧
      substitute components t = ⟨t.head.instantiate c, []⟩ := by
  obtain ⟨hplain, hdeclared⟩ := Head.isSubstituted_iff.mp h
  obtain ⟨c, hc⟩ := Head.exists_find?_eq_some hdeclared
  exact ⟨c, hc, substitute_of_find?_eq_some hplain hc⟩

/-- The three ways in which the search meets a tag. -/
theorem Head.isInstance_or_isSubstituted_or_isSearched (components : List UserComponent) (h : Head) :
    h.isInstance ∨ h.isSubstituted components ∨ h.isSearched components := by
  rw [isSubstituted_iff, isSearched_iff, ← and_or_left]
  by_cases hinstance : h.isInstance
  · exact .inl hinstance
  · exact .inr ⟨hinstance, Classical.em _⟩

/-! ## The search at a position -/

/-- At a position that the search reaches stands what it makes of the tag there. -/
theorem at?_substitute (h : t.AllAbove (fun h => h.isSearched components) p) :
    (substitute components t).at? p = (t.at? p).map (substitute components) := by
  induction p generalizing t with
  | nil => rfl
  | cons i p ih =>
    rw [substitute_of_isSearched h.top, at?, at?, List.getElem?_map]
    cases hchild : t.children[i]? with
    | none => rfl
    | some child => exact ih ((allAbove_cons_iff hchild).mp h).2

theorem at?_identify (hne : p ≠ []) (h : t.AllBetween (fun h => h.isSearched components) p) :
    (identify components t).at? p = (t.at? p).map (substitute components) := by
  cases p with
  | nil => exact absurd rfl hne
  | cons i p =>
    rw [identify_eq, at?, at?, List.getElem?_map]
    cases hchild : t.children[i]? with
    | none => rfl
    | some child => exact at?_substitute ((allBetween_cons_iff hchild).mp h)

/-- An instance stays with all that is below it, unless a tag above it is replaced. -/
theorem at?_substitute_of_isInstance (hu : t.at? p = some u) (hinstance : u.head.isInstance) :
    (substitute components t).at? p = if t.inSubstituted components p then none else some u := by
  induction p generalizing t with
  | nil =>
    cases hu
    have hkept : ¬u.head.isSubstituted components := fun h => (Head.isSubstituted_iff.mp h).1 hinstance
    rw [substitute_of_isInstance hinstance, inSubstituted, if_neg hkept, at?]
  | cons i p ih =>
    obtain ⟨child, hchild, hbelow⟩ := at?_cons_eq_some_iff.mp hu
    rcases Head.isInstance_or_isSubstituted_or_isSearched components t.head with
      htop | hsubstituted | hsearched
    · rw [substitute_of_isInstance htop, hu, inSubstituted, Head.isSubstituted, Head.isSearched, htop]
      rfl
    · obtain ⟨c, -, hnew⟩ := substitute_of_isSubstituted hsubstituted
      rw [hnew, if_pos (inSubstituted_of_isSubstituted hsubstituted _)]
      rfl
    · rw [substitute_of_isSearched hsearched, inSubstituted_cons_of_isSearched hsearched hchild,
        ← ih hbelow, at?, List.getElem?_map, hchild]
      rfl

theorem at?_identify_of_isInstance (hne : p ≠ []) (hu : t.at? p = some u) (hinstance : u.head.isInstance) :
    (identify components t).at? p = if t.inReplaced components p then none else some u := by
  cases p with
  | nil => exact absurd rfl hne
  | cons i p =>
    obtain ⟨child, hchild, hbelow⟩ := at?_cons_eq_some_iff.mp hu
    rw [inReplaced_cons hchild, ← at?_substitute_of_isInstance hbelow hinstance, identify_eq, at?,
      List.getElem?_map, hchild]
    rfl

/-- Where the search has gone, no component is declared for a tag that is no instance. -/
theorem not_isDeclared_of_substitute_at
    (habove : (substitute components t).AllAbove (fun h => ¬h.isInstance) p)
    (hu : (substitute components t).at? p = some u) (hplain : ¬u.head.isInstance) :
    ¬u.head.isDeclared components := by
  induction p generalizing t with
  | nil =>
    cases hu
    rcases substitute_cases components t with ⟨hinstance, hsame⟩ | ⟨-, c, -, hnew⟩ | ⟨-, hnone, hsearched⟩
    · rw [hsame] at hplain
      exact absurd hinstance hplain
    · rw [hnew] at hplain
      exact absurd rfl hplain
    · rw [hsearched]
      exact Head.find?_eq_none_iff.mp hnone
  | cons i p ih =>
    obtain ⟨child, hchild, hbelow⟩ := at?_cons_eq_some_iff.mp hu
    obtain ⟨htop, habove⟩ := (allAbove_cons_iff hchild).mp habove
    rcases substitute_cases components t with ⟨hinstance, hsame⟩ | ⟨-, c, -, hnew⟩ | ⟨-, -, hsearched⟩
    · rw [hsame] at htop
      exact absurd hinstance htop
    · rw [hnew] at htop
      exact absurd rfl htop
    · rw [hsearched, List.getElem?_map] at hchild
      obtain ⟨before, -, rfl⟩ := Option.map_eq_some_iff.mp hchild
      exact ih habove hbelow

theorem not_isDeclared_of_identify_at (hne : p ≠ [])
    (hbetween : (identify components t).AllBetween (fun h => ¬h.isInstance) p)
    (hu : (identify components t).at? p = some u) (hplain : ¬u.head.isInstance) :
    ¬u.head.isDeclared components := by
  cases p with
  | nil => exact absurd rfl hne
  | cons i p =>
    obtain ⟨child, hchild, hbelow⟩ := at?_cons_eq_some_iff.mp hu
    have habove := (allBetween_cons_iff hchild).mp hbetween
    rw [identify_eq, List.getElem?_map] at hchild
    obtain ⟨before, -, rfl⟩ := Option.map_eq_some_iff.mp hchild
    exact not_isDeclared_of_substitute_at habove hbelow hplain

/-! ## What becomes of each tag -/

/-- What a list of declared components makes of a tag tree: the outermost tags that they are declared for are
replaced, and nothing else changes. -/
structure ReplacesOutermost (components : List UserComponent) (t t' : Tag) : Prop where
  /-- The root keeps its own data, even if it is an instance or a component is declared for it. -/
  root : t'.head = t.head
  /-- An instance has all that was below it. It is missing exactly if a tag above it is replaced, since such a
  tag loses its children. -/
  instances {p : List Nat} {u : Tag} : p ≠ [] → t.at? p = some u → u.head.isInstance →
    t'.at? p = if t.inReplaced components p then none else some u
  /-- An outermost tag that has the name of a component, or whose layer has it, becomes an instance of the first
  such component, with the properties of the component as its attributes. It loses its children and keeps its
  style, its texts and its source. -/
  replaced {p : List Nat} {u : Tag} : p ≠ [] → t.AllBetween (fun h => h.isSearched components) p →
    t.at? p = some u → ¬u.head.isInstance →
    (∃ c ∈ components, c.name = u.head.source.name ∨ c.name = u.head.name) →
      ∃ c, components.find? (fun c => c.name == u.head.source.name || c.name == u.head.name) = some c ∧
        t'.at? p = some ⟨{ u.head with
          name := Text.sanitize c.name
          isInstance := true
          isDefinition := false
          isImage := false
          attributes := c.props.map fun prop => ⟨prop.name, some prop.value, prop.isExpression⟩ }, []⟩
  /-- Any other tag that is reached keeps its own data, and so does the root. -/
  kept {p : List Nat} {u : Tag} : t.AllBetween (fun h => h.isSearched components) p → t.at? p = some u →
    p = [] ∨ u.head.isSearched components →
      ∃ v, t'.at? p = some v ∧ v.head = u.head ∧
        v.children.map (fun child => child.head.source) = u.children.map fun child => child.head.source
  /-- No tag is left to be replaced. -/
  exhausted {p : List Nat} {u : Tag} : p ≠ [] → t'.AllBetween (fun h => ¬h.isInstance) p →
    t'.at? p = some u → ¬u.head.isInstance →
      ∀ c ∈ components, c.name ≠ u.head.source.name ∧ c.name ≠ u.head.name

/-- A property is an attribute of its name and value, which is an expression if the property is one. -/
theorem attribute_eq (prop : ComponentProp) :
    prop.attribute = ⟨prop.name, some prop.value, prop.isExpression⟩ := by
  obtain ⟨name, value, isExpression⟩ := prop
  cases isExpression <;> rfl

theorem source_substitute (components : List UserComponent) (t : Tag) :
    (substitute components t).head.source = t.head.source := by
  rcases substitute_cases components t with ⟨-, hsame⟩ | ⟨-, c, -, hnew⟩ | ⟨-, -, hsearched⟩
  · rw [hsame]
  · rw [hnew]
    rfl
  · rw [hsearched]

/-- Children that were searched stand for the same layers in the same order. -/
theorem map_source_map_substitute (components : List UserComponent) (ts : List Tag) :
    (ts.map (substitute components)).map (fun child => child.head.source) =
      ts.map fun child => child.head.source := by
  rw [List.map_map]
  exact List.map_congr_left fun child _ => source_substitute components child

theorem replacesOutermost_identify (components : List UserComponent) (t : Tag) :
    ReplacesOutermost components t (t.identify components) where
  root := by rw [identify_eq]
  instances := at?_identify_of_isInstance
  replaced hne hbetween hu hplain hdeclared := by
    obtain ⟨c, hc, hnew⟩ := substitute_of_isSubstituted
      (Head.isSubstituted_iff.mpr ⟨hplain, Head.isDeclared_iff.mpr hdeclared⟩)
    refine ⟨c, hc, ?_⟩
    rw [at?_identify hne hbetween, hu, Option.map_some, hnew, Head.instantiate,
      List.map_congr_left fun prop _ => attribute_eq prop]
  kept {p u} hbetween hu hkept := by
    by_cases hroot : p = []
    · subst hroot
      cases hu
      refine ⟨_, rfl, ?_, ?_⟩
      · rw [identify_eq]
      · rw [identify_eq, map_source_map_substitute]
    · have hsearched := substitute_of_isSearched (hkept.resolve_left hroot)
      refine ⟨⟨u.head, u.children.map (substitute components)⟩, ?_, rfl, map_source_map_substitute _ _⟩
      rw [at?_identify hroot hbetween, hu, Option.map_some, hsearched]
  exhausted hne hbetween hu hplain :=
    Head.not_isDeclared_iff.mp (not_isDeclared_of_identify_at hne hbetween hu hplain)

end Handoff.Tag
