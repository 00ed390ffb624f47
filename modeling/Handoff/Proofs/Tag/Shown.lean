/-
# Handoff.Proofs.Tag.Shown — the tag tree as the visible part of its scene

Building walks a scene once and decides at every node whether there is a tag, what it is, and whether to go
on below it. Here the outcome is said without the walk. The tags are the visible nodes all of whose
ancestors are visible and not shown as images, each once and in scene order, and the tags above a tag are
those of the nodes above its node. What a tag is, is read off its node alone, except that the root is no
component definition.
-/

import Handoff.Proofs.Scene.Ancestry
import Handoff.Proofs.Tag.Located
import Handoff.Proofs.Tag.Tree

namespace Handoff

namespace SceneNode

/-- Whether the children of a node are unpacked: it is visible and not shown as one image. -/
def isOpen (n : SceneNode) : Bool :=
  n.visible && !n.isImageLike

/-- A text is a leaf. -/
theorem children_of_isText {n : SceneNode} (h : n.isText) : n.children = [] := by
  cases n with
  | text layer run => rfl
  | _ => cases h

theorem isSome_characters? (n : SceneNode) : n.characters?.isSome = n.isText := by
  cases n <;> rfl

/-- A longer position leads on from the node at the shorter one. -/
theorem shownAt?_append (n : SceneNode) (p q : List Nat) :
    n.shownAt? (p ++ q) = (n.shownAt? p).bind fun m => m.shownAt? q := by
  induction p generalizing n with
  | nil => rfl
  | cons i p ih =>
    rw [List.cons_append, shownAt?, shownAt?, Option.bind_assoc]
    congr 1
    funext child
    exact ih child

end SceneNode

namespace Tag

/-! ## Standings of tags -/

mutual

/-- The nodes that the tags of a tree stand for, in pre-order, each with the nodes of the tags above it. -/
def standingsFrom (above : List SceneNode) : Tag → List Standing
  | ⟨head, children⟩ => ⟨above, head.source⟩ :: standingsOfList (above ++ [head.source]) children

def standingsOfList (above : List SceneNode) : List Tag → List Standing
  | [] => []
  | t :: ts => standingsFrom above t ++ standingsOfList above ts

end

def standings (t : Tag) : List Standing :=
  t.standingsFrom []

theorem standingsOfList_eq_flatMap (above : List SceneNode) (ts : List Tag) :
    standingsOfList above ts = ts.flatMap (standingsFrom above) := by
  induction ts with
  | nil => rw [standingsOfList, List.flatMap_nil]
  | cons t ts ih => rw [standingsOfList, List.flatMap_cons, ih]

theorem standingsFrom_eq_cons (above : List SceneNode) (t : Tag) :
    t.standingsFrom above =
      ⟨above, t.head.source⟩ :: t.children.flatMap (standingsFrom (above ++ [t.head.source])) := by
  obtain ⟨head, children⟩ := t
  rw [standingsFrom, standingsOfList_eq_flatMap]

/-- Every tag of the tree has its standing. -/
theorem map_node_standingsFrom (above : List SceneNode) (t : Tag) :
    (t.standingsFrom above).map Standing.node = t.preorder.map fun u => u.head.source := by
  induction t using induction_on_children generalizing above with
  | step head children ih =>
    rw [standingsFrom_eq_cons, preorder_eq_cons, preorderList_eq_flatMap, List.map_cons, List.map_cons,
      List.map_flatMap, List.map_flatMap, List.flatMap_def, List.flatMap_def,
      List.map_congr_left fun u hu => ih u hu _]

/-! ## The shown part of a scene -/

variable {detection : Detection} {ctx : StyleContext} {counter counter' : Counter}

/-- The standings that are seen where images hide what is below them. -/
def shownFrom (above : List SceneNode) (n : SceneNode) : List Standing :=
  (n.standingsFrom above).filter (Standing.isSeen SceneNode.isOpen)

theorem shownFrom_of_hidden {above : List SceneNode} {n : SceneNode} (hn : ¬n.visible) :
    shownFrom above n = [] :=
  SceneNode.filter_isSeen_of_hidden (fun _ hm => (Bool.and_eq_true_iff.mp hm).1) hn

/-- The tree of a node has a tag for each standing that is shown, in scene order. -/
theorem standings_of_buildIn {above : List SceneNode} {n : SceneNode} {t : Tag}
    (habove : above.all SceneNode.isOpen)
    (h : buildIn detection ctx n counter = (some t, counter')) :
    t.standingsFrom above = shownFrom above n := by
  induction n using SceneNode.induction_on_children generalizing above ctx counter counter' t with
  | step n ih =>
    obtain ⟨hvisible, hhead, hbelow⟩ := of_buildIn h
    have hsource : t.head.source = n := source_of_buildIn h
    rw [shownFrom, SceneNode.filter_isSeen_of_visible habove hvisible, standingsFrom_eq_cons, hsource]
    congr 1
    by_cases himage : n.isImageLike
    · have hclosed : ¬n.isOpen := by simp [SceneNode.isOpen, himage]
      rw [builtBelow, if_pos himage, Prod.mk.injEq] at hbelow
      rw [if_neg hclosed, ← hbelow.1, List.flatMap_nil]
    · have hopen : n.isOpen := by simp [SceneNode.isOpen, hvisible, himage]
      rw [builtBelow, if_neg himage] at hbelow
      rw [if_pos hopen]
      exact flatMap_of_buildList (fun m hm => shownFrom_of_hidden hm)
        (fun m hm _ _ _ _ hbuilt => ih m hm (SceneNode.all_append_singleton habove hopen) hbuilt) hbelow

/-! ## One tag and its node -/

/-- The tags of siblings stand for the visible ones among them. -/
theorem map_source_of_buildList {ns : List SceneNode} {ts : List Tag}
    (h : buildList detection ctx ns counter = (ts, counter')) :
    (ts.map fun t => t.head.source) = ns.filter SceneNode.visible := by
  have hsource : ∀ n ∈ ns, ∀ ⦃ctx counter counter' t⦄,
      buildIn detection ctx n counter = (some t, counter') →
      [t.head.source] = [n].filter SceneNode.visible := by
    intro n _ ctx counter counter' t hbuilt
    obtain ⟨hvisible, hhead, -⟩ := of_buildIn hbuilt
    rw [List.filter_cons_of_pos hvisible, hhead]
    rfl
  have hhidden : ∀ n : SceneNode, ¬n.visible → [n].filter SceneNode.visible = [] :=
    fun n hn => List.filter_cons_of_neg hn
  rw [List.map_eq_flatMap, flatMap_of_buildList hhidden hsource h, ← List.filter_flatMap,
    List.flatMap_singleton']

/-- What a tag is, compared with the node that it stands for. -/
structure Reflects (detection : Detection) (isRoot : Bool) (t : Tag) : Prop where
  /-- Below an image there is nothing; below any other tag, one tag for each visible child. -/
  children : (t.children.map fun u => u.head.source) =
    if t.head.isImage then [] else t.head.source.children.filter SceneNode.visible
  isImage : t.head.isImage = t.head.source.isImageLike
  image : t.head.isImage → t.head.name = "img" ∧ t.head.attributes = [.text "src" ""]
  unpacked : ¬t.head.isImage →
    t.head.name = Text.sanitize t.head.source.name ∧ t.head.attributes = []
  isText : t.head.isText = t.head.source.isText
  characters : t.head.characters = t.head.source.characters?
  text : t.head.isText → t.head.characters.isSome ∧ ¬t.head.isImage ∧ t.children = []
  untyped : ¬t.head.isText → t.head.characters = none
  isInstance : t.head.isInstance ↔ detection = .identify ∧ t.head.source.isInstance
  isDefinition : t.head.isDefinition ↔
    detection = .identify ∧ t.head.source.isComponent ∧ ¬isRoot

/-- A tag reflects the node that it was built from. -/
theorem reflects_of_buildIn {n : SceneNode} {t : Tag}
    (h : buildIn detection ctx n counter = (some t, counter')) : Reflects detection ctx.parent.isNone t := by
  obtain ⟨-, hhead, hbelow⟩ := of_buildIn h
  have hchildren : (t.children.map fun u => u.head.source) =
      if n.isImageLike then [] else n.children.filter SceneNode.visible := by
    rw [builtBelow] at hbelow
    split at hbelow
    next himage =>
      rw [Prod.mk.injEq] at hbelow
      rw [if_pos himage, ← hbelow.1, List.map_nil]
    next himage => rw [if_neg himage, map_source_of_buildList hbelow]
  have htext := SceneNode.isSome_characters? n
  constructor
  case children => rw [hhead]; exact hchildren
  case isImage => rw [hhead]; rfl
  case image =>
    intro himage
    rw [hhead] at himage ⊢
    exact ⟨if_pos himage, if_pos himage⟩
  case unpacked =>
    intro himage
    rw [hhead] at himage ⊢
    exact ⟨if_neg himage, if_neg himage⟩
  case isText => rw [hhead]; exact htext
  case characters => rw [hhead]; rfl
  case text =>
    intro ht
    rw [hhead] at ht ⊢
    have hn : n.isText := htext ▸ ht
    have himage : n.isImageLike = false := SceneNode.not_isImageLike_of_isText hn
    refine ⟨ht, by simp [builtHead, headOf, himage], ?_⟩
    rw [himage, if_neg Bool.false_ne_true, SceneNode.children_of_isText hn, List.filter_nil] at hchildren
    exact List.map_eq_nil_iff.mp hchildren
  case untyped =>
    intro ht
    rw [hhead] at ht ⊢
    simpa [builtHead, headOf] using ht
  case isInstance => rw [hhead]; simp [builtHead, headOf]
  case isDefinition =>
    rw [hhead]
    show (detection == .identify && !ctx.parent.isNone && n.isComponent) = true ↔
      detection = .identify ∧ n.isComponent = true ∧ ¬ctx.parent.isNone = true
    rw [Bool.and_eq_true, Bool.and_eq_true, beq_iff_eq, Bool.not_eq_true', Bool.not_eq_true, and_assoc,
      and_comm (b := n.isComponent = true)]

/-! ## Whole trees -/

/-- Only the root has no parent. -/
theorem isNone_parent_contextAt {unit : LengthUnit} {root m : SceneNode} {p : List Nat}
    (hm : root.shownAt? p = some m) : (contextAt { unit } root p).parent.isNone = p.isEmpty := by
  cases hp : p with
  | nil => rfl
  | cons i q =>
    have hsplit := List.dropLast_concat_getLast (l := p) (by simp [hp])
    rw [← hsplit, SceneNode.shownAt?_append] at hm
    obtain ⟨parent, hparent, -⟩ := Option.bind_eq_some_iff.mp hm
    rw [hp] at hparent
    simp [contextAt, hparent]

/-- **The tag tree is the visible part of the scene, without what is below images.** There is no tree
exactly if the root is invisible. Otherwise the tags stand, in pre-order, for exactly those visible nodes
all of whose ancestors are visible and not shown as images, and every tag reflects its node. -/
theorem build_reflects (root : SceneNode) (unit : LengthUnit) (detection : Detection) (start : Counter) :
    ((build root unit detection start).1 = none ↔ root.visible = false) ∧
    root.standings.map Standing.node = root.preorder ∧
    ∀ t stop, build root unit detection start = (some t, stop) →
      (t.standings.map Standing.node = t.preorder.map fun u => u.head.source) ∧
      t.standings = root.standings.filter (Standing.isSeen SceneNode.isOpen) ∧
      ∀ p u, t.at? p = some u → Reflects detection p.isEmpty u := by
  refine ⟨?_, SceneNode.map_node_standingsFrom root, fun t stop hbuilt =>
    ⟨map_node_standingsFrom [] t, ?_, fun p u hu => ?_⟩⟩
  · have hbuilt : (build root unit detection start).1.isSome = root.visible := buildIn_isSome root
    rw [← hbuilt]
    exact Option.isNone_iff_eq_none.symm.trans Option.isSome_eq_false_iff.symm
  · have hnone : ([] : List SceneNode).all SceneNode.isOpen := rfl
    exact standings_of_buildIn hnone hbuilt
  · obtain ⟨m, c, hm, hbuilt⟩ := of_buildIn_at hbuilt hu
    have hroot : (contextAt { unit } root p).parent.isNone = p.isEmpty := isNone_parent_contextAt hm
    rw [← hroot]
    exact reflects_of_buildIn hbuilt

end Tag

end Handoff
