/-
# Handoff.Proofs.Tag.Hidden — when invisible nodes make a difference

Building leaves invisible nodes out, numbers only visible siblings, and asks of an out-of-flow child
whether it is visible. One question looks at all children alike: whether they are vector art. So invisible
nodes make no difference to a tree, and none to what is written from it, exactly as long as they do not
decide for a node with a tag whether it is shown as an image.
-/

import Handoff.Proofs.Tag.Source

namespace Handoff

open SceneNode (withoutHidden)

/-! ## What taking invisible nodes out keeps -/

theorem keepsShown_withoutHidden : KeepsShown withoutHidden where
  name := SceneNode.name_withoutHidden
  visible := SceneNode.visible_withoutHidden
  isText := SceneNode.isText_withoutHidden
  children := SceneNode.filter_children_withoutHidden

/-- Only by being shown differently can a node get another tag. -/
theorem keepsTag_withoutHidden {n : SceneNode} (h : n.withoutHidden.isImageLike = n.isImageLike)
    (detection : Detection) : KeepsTag withoutHidden detection n where
  headOf isRoot := by
    simp only [Tag.headOf, h, SceneNode.name_withoutHidden, SceneNode.characters?_withoutHidden,
      SceneNode.isInstance_withoutHidden, SceneNode.isComponent_withoutHidden]
  declarations ctx := SceneNode.declarations_withoutHidden h ctx

namespace Tag

variable {root : SceneNode} {unit : LengthUnit} {detection : Detection} {start stop : Counter} {t u : Tag}

/-- A tag of a built tree is an image exactly if its node is shown as one. -/
theorem isImage_of_mem_preorder (h : build root unit detection start = (some t, stop))
    (hu : u ∈ t.preorder) : u.head.isImage = u.head.source.isImageLike := by
  obtain ⟨p, hp⟩ := exists_at?_of_mem_preorder hu
  obtain ⟨n, c, -, hbuilt⟩ := of_buildIn_at h hp
  obtain ⟨-, hhead, -⟩ := of_buildIn hbuilt
  rw [hhead]
  rfl

/-- A tree that only changed its sources has its tags where they were. -/
theorem mapSource_mem_preorder {f : SceneNode → SceneNode} (hu : u ∈ t.preorder) :
    u.mapSource f ∈ (t.mapSource f).preorder := by
  obtain ⟨p, hp⟩ := exists_at?_of_mem_preorder hu
  apply mem_preorder_of_at? (p := p)
  rw [at?_mapSource, hp]
  rfl

/-- **When invisible nodes make no difference.** A visible root has a tree. Without its invisible nodes the
scene has the same tree, up to the nodes that the tags stand for, and leaves the counter at the same
number, if and only if no node with a tag is shown as an image because of its invisible children or in
spite of them. Modules and stylesheets are then the same in every dialect. -/
theorem build_withoutHidden_iff (unit : LengthUnit) (detection : Detection) (start : Counter)
    (hroot : root.visible) :
    ∃ t stop, build root unit detection start = (some t, stop) ∧
      (build root.withoutHidden unit detection start = (some (t.mapSource withoutHidden), stop) ↔
        ∀ u ∈ t.preorder, u.head.source.withoutHidden.isImageLike = u.head.source.isImageLike) ∧
      (∀ dialect, Markup.moduleText dialect (t.mapSource withoutHidden) = Markup.moduleText dialect t) ∧
      ∀ toClasses dialect, Stylesheet.sheet toClasses dialect (t.mapSource withoutHidden) =
        Stylesheet.sheet toClasses dialect t := by
  obtain ⟨t, stop, hbuilt⟩ := exists_build unit detection start hroot
  refine ⟨t, stop, hbuilt, ⟨fun hsame u hu => ?_, fun hshown => ?_⟩,
    fun dialect => Markup.moduleText_mapSource dialect t,
    fun toClasses dialect => Stylesheet.sheet_mapSource toClasses dialect t⟩
  · -- Both trees mark a tag as an image exactly if its own node is shown as one.
    have hleft := isImage_of_mem_preorder hbuilt hu
    have hright := isImage_of_mem_preorder hsame (mapSource_mem_preorder hu)
    rw [head_mapSource] at hright
    rw [← hleft, ← hright]
  · exact buildIn_map keepsShown_withoutHidden root hbuilt fun p u hu =>
      keepsTag_withoutHidden (hshown u (mem_preorder_of_at? hu)) detection

/-- A frame around an invisible frame with a text in it, an invisible vector, and a text. -/
def notice : SceneNode :=
  .container .frame { name := "Notice" } {}
    [.container .frame { name := "Draft", visible := false } {}
        [.text { name := "Old" } { characters := "old" }],
      .shape .vector { name := "Rule", visible := false } {},
      .text { name := "Message" } { characters := "Hello" }]

/-- The text keeps the frame from being an image, with or without the vector. -/
theorem build_withoutHidden_notice :
    ∃ t stop, build notice .px .identify {} = (some t, stop) ∧
      build notice.withoutHidden .px .identify {} = (some (t.mapSource withoutHidden), stop) := by
  obtain ⟨t, stop, hbuilt, hiff, -⟩ :=
    build_withoutHidden_iff .px .identify {} (show notice.visible by decide)
  have hshown : (build notice .px .identify {}).1.map
      (fun t => t.preorder.all fun u =>
        u.head.source.withoutHidden.isImageLike == u.head.source.isImageLike) = some true := by
    decide
  rw [hbuilt, Option.map_some, Option.some.injEq, List.all_eq_true] at hshown
  exact ⟨t, stop, hbuilt, hiff.mpr fun u hu => beq_iff_eq.mp (hshown u hu)⟩

/-- A frame with nothing but an invisible vector in it. -/
def emptyFrame : SceneNode :=
  .container .frame { name := "Page" } {} [.shape .vector { name := "Path", visible := false } {}]

/-- An invisible vector turns the frame around it into an image, so the trees differ in more than their
sources. -/
theorem not_forall_build_withoutHidden :
    ¬∀ (root : SceneNode) (unit : LengthUnit) (detection : Detection) (t t' : Tag)
      (stop stop' : Counter), root.visible → build root unit detection {} = (some t, stop) →
      build root.withoutHidden unit detection {} = (some t', stop') →
      t'.mapSource (fun _ => default) = t.mapSource fun _ => default := by
  intro h
  obtain ⟨t, stop, hbuilt⟩ := exists_build .px .identify {} (show emptyFrame.visible by decide)
  obtain ⟨t', stop', hbuilt'⟩ :=
    exists_build .px .identify {} (show emptyFrame.withoutHidden.visible by decide)
  have himage : (build emptyFrame .px .identify {}).1.map (·.head.isImage) = some true := by decide
  have himage' : (build emptyFrame.withoutHidden .px .identify {}).1.map (·.head.isImage) =
      some false := by
    decide
  rw [hbuilt, Option.map_some, Option.some.injEq] at himage
  rw [hbuilt', Option.map_some, Option.some.injEq] at himage'
  have hsame := congrArg (·.head.isImage)
    (h emptyFrame .px .identify t t' stop stop' (by decide) hbuilt hbuilt')
  simp only [head_mapSource, himage, himage'] at hsame
  cases hsame

end Tag

end Handoff
