/-
# Handoff.Proofs.Tag.Source — trees over a changed scene

Every tag refers to the node that it stands for, so trees of two scenes are never simply equal. `mapSource`
says what equality is left: the same tree with each node replaced. Markup and stylesheets do not see the
difference. The second half is the simulation that such equalities come from: a map of nodes that keeps
what building reads of every node with a tag turns the tree of a scene into that of the mapped scene.
-/

import Handoff.Proofs.Scene.Shape
import Handoff.Proofs.Tag.Comparison
import Handoff.Stylesheet.Sheet

namespace Handoff

variable {f : SceneNode → SceneNode}

namespace Tag

/-! ## Other sources -/

mutual

/-- The tree with another node as the source of each tag. -/
def mapSource (f : SceneNode → SceneNode) : Tag → Tag
  | ⟨head, children⟩ => ⟨{ head with source := f head.source }, mapSourceList f children⟩

def mapSourceList (f : SceneNode → SceneNode) : List Tag → List Tag
  | [] => []
  | t :: ts => mapSource f t :: mapSourceList f ts

end

theorem mapSourceList_eq_map (ts : List Tag) : mapSourceList f ts = ts.map (mapSource f) := by
  induction ts with
  | nil => rw [mapSourceList, List.map_nil]
  | cons t ts ih => rw [mapSourceList, List.map_cons, ih]

theorem mapSource_eq (head : Head) (children : List Tag) :
    mapSource f ⟨head, children⟩ =
      ⟨{ head with source := f head.source }, children.map (mapSource f)⟩ := by
  rw [mapSource, mapSourceList_eq_map]

theorem head_mapSource (t : Tag) : (t.mapSource f).head = { t.head with source := f t.head.source } := by
  obtain ⟨head, children⟩ := t
  rw [mapSource_eq]

/-- Replacing sources is a view of heads. -/
theorem mapSource_eq_mapHead (t : Tag) :
    t.mapSource f = t.mapHead fun h => { h with source := f h.source } := by
  induction t using induction_on_children with
  | step head children ih => rw [mapSource_eq, mapHead_eq, List.map_congr_left ih]

/-- The same tag stands at each position, with its new source. -/
theorem at?_mapSource (t : Tag) (p : List Nat) :
    (t.mapSource f).at? p = (t.at? p).map (mapSource f) := by
  rw [mapSource_eq_mapHead, at?_mapHead, funext mapSource_eq_mapHead]

end Tag

/-! ## Output -/

namespace Markup

theorem keepsWritten_mapSource :
    KeepsWritten fun h : Tag.Head => { h with source := f h.source } where
  head _ := rfl
  className _ := rfl
  isEmpty _ := rfl

/-- A module does not depend on the nodes that its tags stand for. -/
theorem moduleText_mapSource (dialect : Dialect) (t : Tag) :
    moduleText dialect (t.mapSource f) = moduleText dialect t := by
  rw [Tag.mapSource_eq_mapHead, moduleText_mapHead keepsWritten_mapSource]

end Markup

namespace Stylesheet

theorem recordsOfList_eq_flatMap (ts : List Tag) : recordsOfList ts = ts.flatMap records := by
  induction ts with
  | nil => rw [recordsOfList, List.flatMap_nil]
  | cons t ts ih => rw [recordsOfList, List.flatMap_cons, ih]

theorem records_mapSource (t : Tag) : records (t.mapSource f) = records t := by
  induction t using Tag.induction_on_children with
  | step head children ih =>
    rw [Tag.mapSource_eq, records, records, recordsOfList_eq_flatMap, recordsOfList_eq_flatMap,
      List.flatMap_map, List.flatMap_def, List.flatMap_def, List.map_congr_left ih]

/-- A stylesheet does not depend on the nodes that the tags stand for. -/
theorem sheet_mapSource (toClasses : String → Outcome) (dialect : Dialect) (t : Tag) :
    sheet toClasses dialect (t.mapSource f) = sheet toClasses dialect t := by
  cases dialect <;> simp only [sheet, flatRules, scopedRules, records_mapSource]

end Stylesheet

/-! ## Building over a changed scene -/

/-- A map of nodes that keeps what building reads of each node by itself, and maps its visible children. -/
structure KeepsShown (f : SceneNode → SceneNode) : Prop where
  name : ∀ n, (f n).name = n.name
  visible : ∀ n, (f n).visible = n.visible
  isText : ∀ n, (f n).isText = n.isText
  children : ∀ n, (f n).children.filter SceneNode.visible = (n.children.filter SceneNode.visible).map f

theorem SceneNode.KeepsShape.keepsShown (hf : SceneNode.KeepsShape f) : KeepsShown f where
  name := hf.name
  visible := hf.visible
  isText := hf.isText
  children := hf.filter_children

/-- The scene shows the mapped node at each position. -/
theorem KeepsShown.shownAt? (hf : KeepsShown f) (n : SceneNode) (p : List Nat) :
    (f n).shownAt? p = (n.shownAt? p).map f := by
  induction p generalizing n with
  | nil => rfl
  | cons i p ih =>
    rw [SceneNode.shownAt?, SceneNode.shownAt?, hf.children, List.getElem?_map]
    cases (n.children.filter SceneNode.visible)[i]? with
    | none => rfl
    | some child => exact ih child

theorem KeepsShown.contextAt (hf : KeepsShown f) (ctx : StyleContext) (n : SceneNode) (p : List Nat) :
    Tag.contextAt (ctx.mapParent f) (f n) p = (Tag.contextAt ctx n p).mapParent f := by
  rw [Tag.contextAt, Tag.contextAt, hf.shownAt?]
  split <;> rfl

/-- What building reads of a node beyond that: how its tag is marked, and its declarations. -/
structure KeepsTag (f : SceneNode → SceneNode) (detection : Detection) (n : SceneNode) : Prop where
  headOf : ∀ isRoot,
    Tag.headOf (f n) detection isRoot = { Tag.headOf n detection isRoot with source := f n }
  declarations : ∀ ctx : StyleContext, (f n).declarations (ctx.mapParent f) = n.declarations ctx

namespace Tag

variable {detection : Detection} {ctx : StyleContext} {counter counter' : Counter}

theorem isImageLike_of_keepsTag {n : SceneNode} (h : KeepsTag f detection n) :
    (f n).isImageLike = n.isImageLike :=
  congrArg Head.isImage (h.headOf true)

/-- A class name is made from names, numbers and what a node is shown as. -/
theorem className_mapParent (hf : KeepsShown f) {n : SceneNode} (himage : (f n).isImageLike = n.isImageLike)
    (ctx : StyleContext) (number : Nat) :
    (f n).className (ctx.mapParent f) number = n.className ctx number := by
  have hparent : (ctx.mapParent f).parent.map SceneNode.name = ctx.parent.map SceneNode.name := by
    rw [StyleContext.mapParent, Option.map_map]
    exact congrArg (Option.map · ctx.parent) (funext hf.name)
  rw [SceneNode.className, SceneNode.className, himage, hf.isText, hf.name, hparent]
  rfl

/-- A kept node gets the same style. -/
theorem inferStyle_of_keeps (hf : KeepsShown f) {n : SceneNode} (h : KeepsTag f detection n) :
    (f n).inferStyle (ctx.mapParent f) counter = n.inferStyle ctx counter := by
  have himage := isImageLike_of_keepsTag h
  rw [SceneNode.inferStyle_eq, SceneNode.inferStyle_eq, className_mapParent hf himage, h.declarations,
    SceneNode.isNumbered, SceneNode.isNumbered, himage, hf.isText]

/-- A kept node gets the same head, but for the node that the head refers to. -/
theorem builtHead_of_keeps (hf : KeepsShown f) {n : SceneNode} (h : KeepsTag f detection n) :
    builtHead detection (ctx.mapParent f) (f n) counter =
      { builtHead detection ctx n counter with source := f n } := by
  have hisRoot : (ctx.mapParent f).parent.isNone = ctx.parent.isNone := Option.isNone_map
  rw [builtHead, builtHead, hisRoot, h.headOf, inferStyle_of_keeps hf h]

/-- All nodes with a tag are kept. -/
def KeepsTree (f : SceneNode → SceneNode) (detection : Detection) (t : Tag) : Prop :=
  ∀ p u, t.at? p = some u → KeepsTag f detection u.head.source

/-- Whatever tree a node has, the mapped node has the same one over the changed scene, if all nodes with
a tag are kept. -/
def BuiltAlike (f : SceneNode → SceneNode) (detection : Detection) (n : SceneNode) : Prop :=
  ∀ ⦃ctx counter counter' t⦄, buildIn detection ctx n counter = (some t, counter') →
    KeepsTree f detection t →
    buildIn detection (ctx.mapParent f) (f n) counter = (some (t.mapSource f), counter')

/-- A map that keeps what is read of each node by itself, compared with leaving the scene as it is. -/
def sourceComparison (hf : KeepsShown f) (detection : Detection) : Comparison where
  node := f
  context := StyleContext.mapParent f
  detection := detection
  detection' := detection
  view h := { h with source := f h.source }
  visible := hf.visible
  isText := hf.isText
  children := hf.children
  contextBelow _ _ := rfl
  nextSibling _ := rfl

/-- **Building over a changed scene.** A map that keeps what building reads, at least of every node that
has a tag, turns the tree of a node into that of the mapped node and leaves the counter where it was. -/
theorem buildIn_map (hf : KeepsShown f) (n : SceneNode) : BuiltAlike f detection n := by
  intro ctx counter counter' t h hkeep
  have hagree : (sourceComparison hf detection).AgreesOn t := by
    intro u hu
    obtain ⟨p, hp⟩ := exists_at?_of_mem_preorder hu
    exact ⟨isImageLike_of_keepsTag (hkeep p u hp), fun _ _ => builtHead_of_keeps hf (hkeep p u hp)⟩
  obtain ⟨t', hbuilt, hview⟩ := (sourceComparison hf detection).carries n h hagree
  have ht' : t' = t.mapSource f := by
    rw [mapSource_eq_mapHead, ← mapHead_id t']
    exact hview
  rw [← ht']
  exact hbuilt

end Tag

end Handoff
