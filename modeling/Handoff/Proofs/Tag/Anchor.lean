/-
# Handoff.Proofs.Tag.Anchor — elements out of flow are anchored

A node decides by its parent whether it is taken out of flow, and a parent decides by its children whether
it has to be their anchor. The two decisions are made apart, at different times and from different lists of
children. In the tree that is built they fit together: an element that is placed absolutely stands in an
element that is positioned, and nothing is made an anchor that has no such child.
-/

import Handoff.Proofs.Style.Names
import Handoff.Proofs.Tag.Located

namespace Handoff

namespace SceneNode

/-! ## The position of a node -/

/-- The position that a node declares under a parent. -/
def positionIn (n : SceneNode) (parent : Option SceneNode) : Option String :=
  if n.isAbsolute parent then some "absolute"
  else if n.hasAbsoluteChild then some "relative"
  else none

theorem positionIn_eq_absolute_iff {n : SceneNode} {parent : Option SceneNode} :
    n.positionIn parent = some "absolute" ↔ n.isAbsolute parent := by
  unfold positionIn
  split
  next h => simp [h]
  next h => split <;> simp [h]

theorem positionIn_eq_relative_iff {n : SceneNode} {parent : Option SceneNode} :
    n.positionIn parent = some "relative" ↔
      n.positionIn parent ≠ some "absolute" ∧ n.hasAbsoluteChild := by
  rw [ne_eq, positionIn_eq_absolute_iff]
  unfold positionIn
  split
  next h => simp [h]
  next h => split <;> simp_all

/-- No rule but that of its place positions a node. -/
theorem position_not_mem_names (n : SceneNode) (unit : LengthUnit) :
    "position" ∉ namesOf (n.effectRules ++ if n.isImageLike then n.imageRules else n.kindRules unit) := by
  have heffect : "position" ∉ namesOf n.effectRules := by
    intro h
    exact absurd ((names_effectRules_sublist n).subset h) (by decide)
  have hkind : "position" ∉ n.kindNames := by
    unfold kindNames
    split
    next box _ => cases box.layoutMode <;> simp [LayoutMode.declaredNames, flexNames]
    all_goals simp
  rw [namesOf_append, List.mem_append]
  rintro (h | h)
  · exact heffect h
  · split at h
    · simp [names_imageRules] at h
    · exact hkind ((names_kindRules_sublist n unit).subset h)

/-- The style of a node has the position that the node declares under its parent. -/
theorem get?_position_inferStyle (n : SceneNode) (ctx : StyleContext) (counter : Counter) :
    (n.inferStyle ctx counter).1.get? "position" = n.positionIn ctx.parent := by
  have hothers : ((n.effectRules ++ if n.isImageLike then n.imageRules else n.kindRules ctx.unit).find?
      fun p => p.name == "position") = none := by
    rw [List.find?_eq_none]
    intro p hp
    have hne : p.name ≠ "position" := by
      intro hname
      apply position_not_mem_names n ctx.unit
      rw [← hname]
      exact List.mem_map_of_mem hp
    simpa using hne
  rw [inferStyle_eq, StyleRecord.get?, StyleRecord.properties_ofProperties, declarations,
    List.append_assoc, List.find?_append, hothers, Option.or_none, placeRules, positionIn]
  split
  next => rfl
  next => split <;> rfl

end SceneNode

namespace Tag

variable {detection : Detection} {ctx : StyleContext} {counter counter' : Counter}

/-! ## Positions in a tree -/

/-- The position that a tag declares. -/
def position? (t : Tag) : Option String :=
  t.head.style.get? "position"

theorem position?_of_buildIn {n : SceneNode} {t : Tag}
    (h : buildIn detection ctx n counter = (some t, counter')) :
    t.position? = n.positionIn ctx.parent := by
  obtain ⟨-, hhead, -⟩ := of_buildIn h
  unfold position?
  rw [hhead]
  exact SceneNode.get?_position_inferStyle n ctx counter

/-- Siblings are positioned as their nodes are under the common parent. -/
theorem map_position?_of_buildList {ns : List SceneNode} {ts : List Tag}
    (h : buildList detection ctx ns counter = (ts, counter')) :
    ts.map position? = (ns.filter SceneNode.visible).map fun m => m.positionIn ctx.parent := by
  induction ns generalizing ctx counter ts with
  | nil =>
    rw [buildList_nil] at h
    cases h
    rfl
  | cons n ns ih =>
    by_cases hv : n.visible
    · obtain ⟨t, c, us, rfl, hbuilt, hrest⟩ := of_buildList_cons hv h
      rw [List.filter_cons_of_pos hv, List.map_cons, List.map_cons, position?_of_buildIn hbuilt, ih hrest]
      rfl
    · rw [buildList_cons_of_hidden ns hv] at h
      rw [List.filter_cons_of_neg hv]
      exact ih h

/-- How a tag and its child tags are positioned with respect to each other. -/
structure Anchors (t : Tag) : Prop where
  /-- Around a child that is out of flow the tag is positioned. -/
  positioned : ∀ u ∈ t.children, u.position? = some "absolute" →
    t.position? = some "absolute" ∨ t.position? = some "relative"
  /-- A tag is made an anchor exactly if it is in flow itself and a child is not. -/
  relative : ¬t.head.isImage → (t.position? = some "relative" ↔
    t.position? ≠ some "absolute" ∧ ∃ u ∈ t.children, u.position? = some "absolute")

/-- A node that is unpacked has an absolute child exactly if one of its child tags is absolute. -/
theorem hasAbsoluteChild_iff {n : SceneNode} {ts : List Tag}
    (h : buildList detection (contextBelow ctx n) n.children counter = (ts, counter')) :
    n.hasAbsoluteChild ↔ ∃ u ∈ ts, u.position? = some "absolute" := by
  have hpositions := map_position?_of_buildList h
  have hmem : (∃ u ∈ ts, u.position? = some "absolute") ↔ some "absolute" ∈ ts.map position? := by
    simp
  rw [hmem, hpositions, List.mem_map, SceneNode.hasAbsoluteChild, List.any_eq_true]
  constructor
  · rintro ⟨m, hm, habsolute⟩
    -- Only a visible child is ever absolute, so it has a tag.
    have hvisible : m.visible := (Bool.and_eq_true_iff.mp habsolute).1
    refine ⟨m, List.mem_filter.mpr ⟨hm, hvisible⟩, ?_⟩
    exact SceneNode.positionIn_eq_absolute_iff.mpr habsolute
  · rintro ⟨m, hm, hposition⟩
    refine ⟨m, (List.mem_filter.mp hm).1, ?_⟩
    exact SceneNode.positionIn_eq_absolute_iff.mp hposition

/-- Every tag that is built anchors its children. -/
theorem anchors_of_buildIn {n : SceneNode} {t : Tag}
    (h : buildIn detection ctx n counter = (some t, counter')) : t.Anchors := by
  have hposition := position?_of_buildIn h
  obtain ⟨-, hhead, hbelow⟩ := of_buildIn h
  have himage : t.head.isImage = n.isImageLike := by
    rw [hhead]
    rfl
  rw [builtBelow] at hbelow
  constructor
  case positioned =>
    intro u hu habsolute
    split at hbelow
    next =>
      rw [Prod.mk.injEq] at hbelow
      simp [← hbelow.1] at hu
    next =>
      have hchild := (hasAbsoluteChild_iff hbelow).mpr ⟨u, hu, habsolute⟩
      rw [hposition]
      by_cases hself : n.positionIn ctx.parent = some "absolute"
      · exact .inl hself
      · exact .inr (SceneNode.positionIn_eq_relative_iff.mpr ⟨hself, hchild⟩)
  case relative =>
    intro hunpacked
    rw [himage] at hunpacked
    rw [if_neg hunpacked] at hbelow
    rw [hposition, SceneNode.positionIn_eq_relative_iff, hasAbsoluteChild_iff hbelow]

/-! ## Whole trees -/

/-- **Elements out of flow are anchored at their parents.** The root of a built tree is never absolute, so
an absolute tag has a parent, and that is absolute or relative. A tag that is no image is relative exactly
if it is not absolute and one of its child tags is. -/
theorem build_anchors {root : SceneNode} (unit : LengthUnit) (detection : Detection) (start : Counter)
    (hroot : root.visible) :
    ∃ t stop, build root unit detection start = (some t, stop) ∧
      t.position? ≠ some "absolute" ∧
      ∀ p u, t.at? p = some u →
        (u.position? = some "absolute" → ∃ q i parent, p = q ++ [i] ∧ t.at? q = some parent ∧
          parent.children[i]? = some u ∧
          (parent.position? = some "absolute" ∨ parent.position? = some "relative")) ∧
        (¬u.head.isImage → (u.position? = some "relative" ↔
          u.position? ≠ some "absolute" ∧ ∃ v ∈ u.children, v.position? = some "absolute")) := by
  obtain ⟨t, stop, hbuilt⟩ := exists_build unit detection start hroot
  have hinflow : t.position? ≠ some "absolute" := by
    rw [position?_of_buildIn hbuilt, ne_eq, SceneNode.positionIn_eq_absolute_iff]
    exact Bool.false_ne_true
  have hanchors {p : List Nat} {u : Tag} (hu : t.at? p = some u) : u.Anchors := by
    obtain ⟨m, c, -, hbuilt⟩ := of_buildIn_at hbuilt hu
    exact anchors_of_buildIn hbuilt
  refine ⟨t, stop, hbuilt, hinflow, fun p u hu => ⟨fun habsolute => ?_, (hanchors hu).relative⟩⟩
  rcases List.eq_nil_or_concat p with rfl | ⟨q, i, rfl⟩
  · cases hu
    exact absurd habsolute hinflow
  · rw [List.concat_eq_append] at hu
    obtain ⟨parent, hparent, hchild⟩ := at?_append_singleton_eq_some_iff.mp hu
    refine ⟨q, i, parent, List.concat_eq_append, hparent, hchild, ?_⟩
    exact (hanchors hparent).positioned u (List.mem_of_getElem? hchild) habsolute

/-- A column with a pinned badge and a group, around a panel that places an icon and a row by hand. -/
def pinboard : SceneNode :=
  .container .frame { name := "Board" } { layoutMode := .vertical }
    [.container .component { name := "Panel" } {}
        [.shape .vector { name := "Icon" } {},
          .text { name := "Draft", visible := false } { characters := "draft" },
          .group { name := "Row" } [.text { name := "Label" } { characters := "Hi" }]],
      .text { name := "Badge", positioning := .absolute } { characters := "new" },
      .group { name := "Rest" } [.shape .rectangle { name := "Line" } {}]]

/-- The column anchors its badge and the panel its icon and its row; a group places nothing. -/
theorem build_anchors_pinboard :
    ∃ t stop, build pinboard .rem .ignore ⟨3⟩ = (some t, stop) ∧
      t.preorder.map position? =
        [some "relative", some "relative", some "absolute", some "absolute", none, some "absolute", none,
          none] ∧
      ∀ p u, t.at? p = some u → u.position? = some "absolute" →
        ∃ q i parent, p = q ++ [i] ∧ t.at? q = some parent ∧ parent.children[i]? = some u ∧
          (parent.position? = some "absolute" ∨ parent.position? = some "relative") := by
  obtain ⟨t, stop, hbuilt, -, h⟩ := build_anchors .rem .ignore ⟨3⟩ (show pinboard.visible by decide)
  have hpositions : (build pinboard .rem .ignore ⟨3⟩).1.map (fun t => t.preorder.map position?) =
      some [some "relative", some "relative", some "absolute", some "absolute", none, some "absolute",
        none, none] := by
    decide
  rw [hbuilt, Option.map_some, Option.some.injEq] at hpositions
  exact ⟨t, stop, hbuilt, hpositions, fun p u hu => (h p u hu).1⟩

end Tag

end Handoff
