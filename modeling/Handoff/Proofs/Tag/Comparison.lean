/-
# Handoff.Proofs.Tag.Comparison — two ways of building compared

What is built depends on the scene, on the unit of lengths and on detection. A `Comparison` relates two
ways of building: to every node and every context of the first it gives those of the second, and it says
through which views the two trees are looked at. If both ways agree at every node that has a tag, then the
trees have one view and the counters end at one number. This is the only induction over building that
compares two trees; what makes no difference to a tree, or a difference that some view does not show, is
then a question about single nodes.
-/

import Handoff.Proofs.Tag.Heads
import Handoff.Proofs.Tag.Located

namespace Handoff

open Tag (Head builtHead builtBelow buildIn buildList contextBelow nextSibling)

/-- Two ways of building, and the views through which their trees are compared. -/
structure Comparison where
  /-- The node of the second scene that belongs to a node of the first. -/
  node : SceneNode → SceneNode
  context : StyleContext → StyleContext
  detection : Detection
  detection' : Detection
  view : Head → Head := id
  view' : Head → Head := id
  visible : ∀ n, (node n).visible = n.visible
  isText : ∀ n, (node n).isText = n.isText
  children : ∀ n, (node n).children.filter SceneNode.visible =
    (n.children.filter SceneNode.visible).map node
  contextBelow : ∀ ctx n, context (contextBelow ctx n) = Tag.contextBelow (context ctx) (node n)
  nextSibling : ∀ ctx, context (nextSibling ctx) = Tag.nextSibling (context ctx)

/-- Two ways of building one scene: what differs is the context or detection. -/
def Comparison.ofScene (context : StyleContext → StyleContext) (detection detection' : Detection)
    (view view' : Head → Head)
    (hbelow : ∀ ctx n, context (Tag.contextBelow ctx n) = Tag.contextBelow (context ctx) n)
    (hsibling : ∀ ctx, context (Tag.nextSibling ctx) = Tag.nextSibling (context ctx)) : Comparison where
  node := id
  context := context
  detection := detection
  detection' := detection'
  view := view
  view' := view'
  visible _ := rfl
  isText _ := rfl
  children _ := (List.map_id _).symm
  contextBelow := hbelow
  nextSibling := hsibling

namespace Tag

variable {detection : Detection} {ctx : StyleContext} {counter counter' : Counter}

/-- Invisible nodes can be left out of a list of siblings. -/
theorem buildList_filter (ns : List SceneNode) :
    buildList detection ctx (ns.filter SceneNode.visible) counter = buildList detection ctx ns counter := by
  induction ns generalizing ctx counter with
  | nil => rfl
  | cons n ns ih =>
    by_cases h : n.visible
    · rw [List.filter_cons_of_pos h, buildList, buildList]
      simp only [ih]
    · rw [List.filter_cons_of_neg h, buildList_cons_of_hidden ns h, ih]

end Tag

namespace Comparison

variable {c : Comparison} {ctx : StyleContext} {counter counter' : Counter} {n : SceneNode}

/-- Both ways agree at a node: on whether it is shown as an image, and on the view of its tag. -/
structure AgreesAt (c : Comparison) (n : SceneNode) : Prop where
  isImageLike : (c.node n).isImageLike = n.isImageLike
  head : ∀ ctx counter, c.view' (builtHead c.detection' (c.context ctx) (c.node n) counter) =
    c.view (builtHead c.detection ctx n counter)

/-- Both ways agree at the nodes of all tags of a tree. -/
def AgreesOn (c : Comparison) (t : Tag) : Prop :=
  ∀ u ∈ t.preorder, c.AgreesAt u.head.source

/-- Where both ways agree, a node takes a number in both or in neither. -/
theorem AgreesAt.inferStyle_counter (h : c.AgreesAt n) :
    ((c.node n).inferStyle (c.context ctx) counter).2 = (n.inferStyle ctx counter).2 := by
  rw [Tag.inferStyle_counter, Tag.inferStyle_counter, SceneNode.isNumbered, SceneNode.isNumbered,
    c.isText, h.isImageLike]

/-- Whatever tree a node has in the first way, it has one in the second with the same view. -/
def Carries (c : Comparison) (n : SceneNode) : Prop :=
  ∀ ⦃ctx counter counter' t⦄, buildIn c.detection ctx n counter = (some t, counter') → c.AgreesOn t →
    ∃ t', buildIn c.detection' (c.context ctx) (c.node n) counter = (some t', counter') ∧
      t'.mapHead c.view' = t.mapHead c.view

/-- Visible siblings are carried over if each of them is. -/
theorem exists_buildList {ns : List SceneNode} {ts : List Tag} (hns : ∀ n ∈ ns, c.Carries n)
    (hvisible : ∀ n ∈ ns, n.visible) (h : buildList c.detection ctx ns counter = (ts, counter'))
    (hagree : ∀ t ∈ ts, c.AgreesOn t) :
    ∃ ts', buildList c.detection' (c.context ctx) (ns.map c.node) counter = (ts', counter') ∧
      ts'.map (Tag.mapHead c.view') = ts.map (Tag.mapHead c.view) := by
  induction ns generalizing ctx counter ts with
  | nil =>
    rw [Tag.buildList_nil] at h
    cases h
    exact ⟨[], Tag.buildList_nil, rfl⟩
  | cons n ns ih =>
    obtain ⟨t, middle, us, rfl, hbuilt, hrest⟩ :=
      Tag.of_buildList_cons (hvisible n List.mem_cons_self) h
    obtain ⟨t', hbuilt', hview⟩ := hns n List.mem_cons_self hbuilt (hagree t List.mem_cons_self)
    obtain ⟨us', hrest', hviews⟩ := ih (fun m hm => hns m (List.mem_cons_of_mem n hm))
      (fun m hm => hvisible m (List.mem_cons_of_mem n hm)) hrest
      fun u hu => hagree u (List.mem_cons_of_mem t hu)
    rw [c.nextSibling] at hrest'
    refine ⟨t' :: us', ?_, by rw [List.map_cons, List.map_cons, hview, hviews]⟩
    rw [List.map_cons, Tag.buildList_cons_of_built hbuilt', hrest']

/-- Below a node at which both ways agree, what was built is carried over if every child is. -/
theorem exists_builtBelow {ts : List Tag} (hn : c.AgreesAt n) (hchildren : ∀ m ∈ n.children, c.Carries m)
    (h : builtBelow c.detection ctx n counter = (ts, counter')) (hagree : ∀ t ∈ ts, c.AgreesOn t) :
    ∃ ts', builtBelow c.detection' (c.context ctx) (c.node n) counter = (ts', counter') ∧
      ts'.map (Tag.mapHead c.view') = ts.map (Tag.mapHead c.view) := by
  rw [builtBelow, hn.isImageLike, hn.inferStyle_counter]
  rw [builtBelow] at h
  by_cases himage : n.isImageLike
  · rw [if_pos himage, Prod.mk.injEq] at h
    obtain ⟨rfl, hcounter⟩ := h
    refine ⟨[], ?_, rfl⟩
    rw [if_pos himage, hcounter]
  · rw [if_neg himage] at h ⊢
    -- Both lists of siblings are read through their visible members only.
    rw [← Tag.buildList_filter] at h ⊢
    rw [c.children, ← c.contextBelow]
    apply exists_buildList _ _ h hagree
    · intro m hm
      exact hchildren m (List.mem_filter.mp hm).1
    · intro m hm
      exact (List.mem_filter.mp hm).2

/-- **Two ways of building compared.** Where both ways agree at the node of every tag, the tree of the
first way has a counterpart in the second with the same view, and the counter ends at the same number. -/
theorem carries (c : Comparison) (n : SceneNode) : c.Carries n := by
  induction n using SceneNode.induction_on_children with
  | step n ih =>
    intro ctx counter counter' t h hagree
    obtain ⟨hvisible, hhead, hbelow⟩ := Tag.of_buildIn h
    have hn : c.AgreesAt n := by
      have hroot := hagree t (Tag.self_mem_preorder t)
      rw [hhead] at hroot
      exact hroot
    obtain ⟨ts', hbelow', hviews⟩ := exists_builtBelow hn ih hbelow fun u hu v hv =>
      hagree v (Tag.mem_preorder_of_mem_children hu hv)
    have hvisible' : (c.node n).visible := by
      rw [c.visible, hvisible]
    rw [Tag.buildIn_of_visible hvisible', hbelow']
    refine ⟨_, rfl, Tag.mapHead_congr ?_ hviews⟩
    rw [hhead]
    exact hn.head ctx counter

/-- If both ways agree at every node, the views of what is built are equal, and so are the counters. -/
theorem buildIn_eq (c : Comparison) (hagree : ∀ n, c.AgreesAt n) (ctx : StyleContext) (n : SceneNode)
    (counter : Counter) :
    let first := buildIn c.detection ctx n counter
    let second := buildIn c.detection' (c.context ctx) (c.node n) counter
    second.1.map (Tag.mapHead c.view') = first.1.map (Tag.mapHead c.view) ∧ second.2 = first.2 := by
  intro first second
  by_cases hvisible : n.visible
  · obtain ⟨t, counter', hbuilt⟩ : ∃ t counter', first = (some t, counter') :=
      ⟨_, _, Tag.buildIn_of_visible hvisible⟩
    obtain ⟨t', hbuilt', hview⟩ := c.carries n hbuilt fun u _ => hagree u.head.source
    show (buildIn _ _ _ _).1.map _ = _ ∧ (buildIn _ _ _ _).2 = _
    rw [hbuilt, hbuilt']
    exact ⟨congrArg some hview, rfl⟩
  · have hhidden : ¬(c.node n).visible := by
      rw [c.visible]
      exact hvisible
    show (buildIn _ _ _ _).1.map _ = (buildIn _ _ _ _).1.map _ ∧
      (buildIn _ _ _ _).2 = (buildIn _ _ _ _).2
    rw [Tag.buildIn_of_hidden hvisible, Tag.buildIn_of_hidden hhidden]
    exact ⟨rfl, rfl⟩

end Comparison

end Handoff
