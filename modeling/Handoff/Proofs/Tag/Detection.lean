/-
# Handoff.Proofs.Tag.Detection — recognising components only sets flags

Whether instances and component definitions are recognised shows in two flags of a tag and in nothing else.
So a tree without recognition can be had in two more ways: from the tree with it, by clearing the flags, and
from a scene in which there is nothing to be recognised, because all its containers are frames.
-/

import Handoff.Proofs.Scene.Frames
import Handoff.Proofs.Tag.Source

namespace Handoff

open SceneNode (asFrames)

theorem keepsShown_asFrames : KeepsShown asFrames :=
  SceneNode.keepsShape_asFrames.keepsShown

/-- Where components are not recognised, a container has the tag of a frame. -/
theorem keepsTag_asFrames (n : SceneNode) : KeepsTag asFrames .ignore n where
  headOf isRoot := by
    simp only [Tag.headOf, SceneNode.keepsShape_asFrames.isImageLike, SceneNode.keepsShape_asFrames.name,
      SceneNode.keepsShape_asFrames.characters?]
    rfl
  declarations ctx := n.declarations_asFrames ctx

namespace Tag

/-! ## Flags -/

/-- The head of a tag that neither refers to a component nor defines one. -/
def Head.plain (h : Head) : Head :=
  { h with isInstance := false, isDefinition := false }

/-- Building with components recognised, compared with building without. -/
def detectionComparison : Comparison :=
  .ofScene id .identify .ignore Head.plain id (fun _ _ => rfl) (fun _ => rfl)

theorem detectionComparison_agreesAt (n : SceneNode) : detectionComparison.AgreesAt n where
  isImageLike := rfl
  head _ _ := rfl

/-! ## Frames -/

/-- Building without recognition, compared with recognition over a scene of frames. -/
def framesComparison : Comparison where
  node := asFrames
  context := StyleContext.mapParent asFrames
  detection := .ignore
  detection' := .identify
  view h := { h with source := asFrames h.source }
  visible := keepsShown_asFrames.visible
  isText := keepsShown_asFrames.isText
  children := keepsShown_asFrames.children
  contextBelow _ _ := rfl
  nextSibling _ := rfl

/-- A frame is neither an instance nor a definition, so there is nothing to recognise. -/
theorem headOf_asFrames (n : SceneNode) (isRoot : Bool) :
    headOf n.asFrames .identify isRoot = headOf n.asFrames .ignore isRoot := by
  unfold headOf
  rw [SceneNode.isInstance_asFrames, SceneNode.isComponent_asFrames, Bool.and_false, Bool.and_false]
  rfl

theorem framesComparison_agreesAt (n : SceneNode) : framesComparison.AgreesAt n where
  isImageLike := SceneNode.keepsShape_asFrames.isImageLike n
  head ctx counter := by
    have hignored : builtHead .ignore (ctx.mapParent asFrames) n.asFrames counter =
        { builtHead .ignore ctx n counter with source := n.asFrames } :=
      builtHead_of_keeps keepsShown_asFrames (keepsTag_asFrames n)
    rw [builtHead, ← headOf_asFrames] at hignored
    exact hignored

/-! ## Trees -/

/-- **Recognising components only sets flags.** A scene has the same tree, and leaves the counter at the
same number, if components are not recognised, if they are and the two flags of every tag are cleared, and,
up to the nodes that the tags stand for, if they are but every container of the scene is a frame. Every tag
has the same style, whether components are recognised or not. -/
theorem build_ignore_eq_plain (root : SceneNode) (unit : LengthUnit) (start : Counter) :
    let ignored := build root unit .ignore start
    let identified := build root unit .identify start
    ignored = (identified.1.map (mapHead Head.plain), identified.2) ∧
    build root.asFrames unit .identify start = (ignored.1.map (mapSource asFrames), ignored.2) ∧
    (ignored.1.map fun t => t.preorder.map fun u => u.head.style) =
      identified.1.map fun t => t.preorder.map fun u => u.head.style := by
  intro ignored identified
  have hid : mapHead id = id := funext mapHead_id
  have hplain : ignored = (identified.1.map (mapHead Head.plain), identified.2) := by
    obtain ⟨htree, hcounter⟩ := detectionComparison.buildIn_eq detectionComparison_agreesAt { unit } root
      start
    change ignored.1.map (mapHead id) = identified.1.map (mapHead Head.plain) at htree
    rw [hid, Option.map_id] at htree
    exact Prod.ext htree hcounter
  have hframes : build root.asFrames unit .identify start =
      (ignored.1.map (mapSource asFrames), ignored.2) := by
    obtain ⟨htree, hcounter⟩ := framesComparison.buildIn_eq framesComparison_agreesAt { unit } root start
    change (build root.asFrames unit .identify start).1.map (mapHead id) =
      ignored.1.map (mapHead fun h => { h with source := asFrames h.source }) at htree
    rw [hid, Option.map_id] at htree
    rw [funext mapSource_eq_mapHead]
    exact Prod.ext htree hcounter
  refine ⟨hplain, hframes, ?_⟩
  have hstyle (t : Tag) : ((t.mapHead Head.plain).preorder.map fun u => u.head.style) =
      t.preorder.map fun u => u.head.style := by
    rw [preorder_mapHead, List.map_map]
    apply List.map_congr_left
    intro u _
    show (u.mapHead Head.plain).head.style = u.head.style
    rw [head_mapHead]
    rfl
  rw [hplain, Option.map_map]
  exact congrArg (fun f => identified.1.map f) (funext hstyle)

end Tag

end Handoff
