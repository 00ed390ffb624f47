/-
# Handoff.Proofs.Tag.Located — what stands where in a tree that was built

The tag at a position of a built tree is itself built: from the node that the scene shows at the same
position, in the context of that position, and with a counter that has passed everything in front of it.
`of_buildIn_at` says so for every position at once. A statement about all tags of a tree follows from it
and from what is known of a single node, without another induction over the recursion that builds.
-/

import Handoff.Proofs.Style.ClassName
import Handoff.Proofs.Tag.Build
import Handoff.Proofs.Tag.Position

namespace Handoff

/-! ## Positions in a scene -/

/-- The node at a position of a scene, where only visible nodes have a place among their siblings. -/
def SceneNode.shownAt? : SceneNode → List Nat → Option SceneNode
  | n, [] => some n
  | n, i :: p => (n.children.filter visible)[i]?.bind fun child => child.shownAt? p

/-- A node that is shown at a position of a visible scene is a visible node of it. -/
theorem SceneNode.of_shownAt? {root n : SceneNode} {p : List Nat} (hroot : root.visible)
    (h : root.shownAt? p = some n) : n ∈ root.preorder ∧ n.visible := by
  induction p generalizing root with
  | nil =>
    cases h
    exact ⟨by rw [preorder_eq_cons]; exact List.mem_cons_self, hroot⟩
  | cons i p ih =>
    rw [shownAt?, Option.bind_eq_some_iff] at h
    obtain ⟨child, hchild, hn⟩ := h
    obtain ⟨hmem, hvisible⟩ := List.mem_filter.mp (List.mem_of_getElem? hchild)
    obtain ⟨hbelow, hshown⟩ := ih hvisible hn
    refine ⟨?_, hshown⟩
    rw [preorder_eq_cons]
    exact List.mem_cons_of_mem _ (List.mem_flatMap.mpr ⟨child, hmem, hbelow⟩)

namespace Tag

/-- Where the node at a position stands, if the node at the top stands in the given context. -/
def contextAt (ctx : StyleContext) (n : SceneNode) (p : List Nat) : StyleContext :=
  if p = [] then ctx
  else
    { unit := ctx.unit
      depth := ctx.depth + p.length
      siblingIndex := p.getLast?.getD 0
      parent := n.shownAt? p.dropLast }

/-- The context of a position below a child is that of the longer position below the parent. -/
theorem contextAt_cons (ctx : StyleContext) {n child : SceneNode} {i : Nat}
    (h : (n.children.filter SceneNode.visible)[i]? = some child) (p : List Nat) :
    contextAt ctx n (i :: p) = contextAt { contextBelow ctx n with siblingIndex := i } child p := by
  cases p with
  | nil => rfl
  | cons j q =>
    have hparent : n.shownAt? (i :: (j :: q).dropLast) = child.shownAt? (j :: q).dropLast := by
      rw [SceneNode.shownAt?, h, Option.bind_some]
    simp only [contextAt, reduceCtorEq, if_false, contextBelow, StyleContext.mk.injEq, List.length_cons,
      List.dropLast_cons_cons, List.getLast?_cons_cons, hparent, true_and, and_true]
    omega

/-! ## Numbers that were taken -/

/-- Whether the class name of a tag has a number. -/
def Head.isNumbered (h : Head) : Bool :=
  h.isText || h.isImage

/-- How many of these tags have a number in their class name. -/
def numberedIn (ts : List Tag) : Nat :=
  ts.countP fun t => t.head.isNumbered

theorem numberedIn_append (ts us : List Tag) : numberedIn (ts ++ us) = numberedIn ts + numberedIn us :=
  List.countP_append

theorem numberedIn_cons (t : Tag) (ts : List Tag) :
    numberedIn (t :: ts) = (if t.head.isNumbered then 1 else 0) + numberedIn ts := by
  rw [numberedIn, List.countP_cons, Nat.add_comm, numberedIn]

theorem numberedIn_preorder (t : Tag) :
    numberedIn t.preorder = (if t.head.isNumbered then 1 else 0) + numberedIn (preorderList t.children) := by
  rw [preorder_eq_cons, numberedIn_cons]

variable {detection : Detection} {ctx : StyleContext} {counter counter' : Counter}

theorem builtHead_isNumbered (n : SceneNode) :
    (builtHead detection ctx n counter).isNumbered = n.isNumbered := by
  have htext : n.characters?.isSome = n.isText := by cases n <;> rfl
  show (n.characters?.isSome || n.isImageLike) = _
  rw [htext, SceneNode.isNumbered]

/-- A node by itself takes one number or none. -/
theorem inferStyle_counter (n : SceneNode) :
    (n.inferStyle ctx counter).2 = counter.skip (if n.isNumbered then 1 else 0) := by
  rw [SceneNode.inferStyle_eq]
  split
  next => rfl
  next => exact counter.skip_zero.symm

/-- Siblings take as many numbers as their trees have numbered tags, if each of them does. -/
theorem counter_of_buildList_of {ns : List SceneNode}
    (ih : ∀ n ∈ ns, ∀ {ctx c c' t}, buildIn detection ctx n c = (some t, c') →
      c' = c.skip (numberedIn t.preorder))
    {ts : List Tag} (h : buildList detection ctx ns counter = (ts, counter')) :
    counter' = counter.skip (numberedIn (preorderList ts)) := by
  induction ns generalizing ctx counter ts with
  | nil =>
    rw [buildList_nil] at h
    cases h
    exact (Counter.skip_zero _).symm
  | cons n ns ihs =>
    have ihrest := fun m hm => @ih m (List.mem_cons_of_mem n hm)
    by_cases hv : n.visible
    · obtain ⟨t, c, us, rfl, hbuilt, hrest⟩ := of_buildList_cons hv h
      have hc := ih n List.mem_cons_self hbuilt
      rw [ihs ihrest hrest, hc, Counter.skip_skip, preorderList, numberedIn_append]
    · rw [buildList_cons_of_hidden ns hv] at h
      exact ihs ihrest h

/-- A tree takes as many numbers as it has numbered tags. -/
theorem counter_of_buildIn {n : SceneNode} {t : Tag}
    (h : buildIn detection ctx n counter = (some t, counter')) :
    counter' = counter.skip (numberedIn t.preorder) := by
  induction n using SceneNode.induction_on_children generalizing ctx counter counter' t with
  | step n ih =>
    obtain ⟨-, hhead, hbelow⟩ := of_buildIn h
    rw [numberedIn_preorder, hhead, builtHead_isNumbered, ← Counter.skip_skip, ← inferStyle_counter]
    by_cases himage : n.isImageLike
    · rw [builtBelow, if_pos himage, Prod.mk.injEq] at hbelow
      rw [← hbelow.1, ← hbelow.2]
      exact (Counter.skip_zero _).symm
    · rw [builtBelow, if_neg himage] at hbelow
      exact counter_of_buildList_of (fun m hm => ih m hm) hbelow

/-! ## The tag at a position -/

/-- The tag at a place among siblings is built from the visible node at the same place. -/
theorem of_buildList_getElem? {ns : List SceneNode} {ts : List Tag} {i : Nat} {u : Tag}
    (h : buildList detection ctx ns counter = (ts, counter')) (hu : ts[i]? = some u) :
    ∃ m c, (ns.filter SceneNode.visible)[i]? = some m ∧
      buildIn detection { ctx with siblingIndex := ctx.siblingIndex + i } m
        (counter.skip (numberedIn (preorderList (ts.take i)))) = (some u, c) := by
  induction ns generalizing ctx counter ts i with
  | nil =>
    rw [buildList_nil] at h
    cases h
    simp at hu
  | cons n ns ih =>
    by_cases hv : n.visible
    · obtain ⟨t, c, us, rfl, hbuilt, hrest⟩ := of_buildList_cons hv h
      rw [List.filter_cons_of_pos hv]
      cases i with
      | zero =>
        cases hu
        refine ⟨n, c, rfl, ?_⟩
        rw [List.take_zero, preorderList]
        exact (congrArg _ counter.skip_zero).trans hbuilt
      | succ i =>
        obtain ⟨m, c', hm, hbuilt'⟩ := ih hrest hu
        refine ⟨m, c', hm, ?_⟩
        rw [counter_of_buildIn hbuilt, Counter.skip_skip] at hbuilt'
        rw [List.take_succ_cons, preorderList, numberedIn_append, Nat.add_comm i, ← Nat.add_assoc]
        exact hbuilt'
    · rw [buildList_cons_of_hidden ns hv] at h
      rw [List.filter_cons_of_neg hv]
      exact ih h hu

/-- **The tag at a position is built from the node that is shown there.** -/
theorem of_buildIn_at {n : SceneNode} {t u : Tag} {p : List Nat}
    (h : buildIn detection ctx n counter = (some t, counter')) (hu : t.at? p = some u) :
    ∃ m c, n.shownAt? p = some m ∧
      buildIn detection (contextAt ctx n p) m (counter.skip (numberedIn (t.before p))) = (some u, c) := by
  induction p generalizing n t ctx counter counter' with
  | nil =>
    cases hu
    exact ⟨n, counter', rfl, (congrArg _ counter.skip_zero).trans h⟩
  | cons i p ih =>
    obtain ⟨child, hchild, hu⟩ := at?_cons_eq_some_iff.mp hu
    obtain ⟨-, hhead, hbelow⟩ := of_buildIn h
    by_cases himage : n.isImageLike
    · -- An image has no children.
      rw [builtBelow, if_pos himage, Prod.mk.injEq] at hbelow
      simp [← hbelow.1] at hchild
    · rw [builtBelow, if_neg himage] at hbelow
      obtain ⟨m, c, hm, hbuilt⟩ := of_buildList_getElem? hbelow hchild
      obtain ⟨m', c', hm', hbuilt'⟩ := ih hbuilt hu
      refine ⟨m', c', by rw [SceneNode.shownAt?, hm, Option.bind_some, hm'], ?_⟩
      -- Ahead of the position come the tag on top, the trees on the left, and what the child visits first.
      rw [before_cons hchild, numberedIn_cons, numberedIn_append, hhead, builtHead_isNumbered,
        ← Counter.skip_skip, ← inferStyle_counter, ← Counter.skip_skip, contextAt_cons ctx hm]
      simpa only [contextBelow, Nat.zero_add] using hbuilt'

theorem shownAt?_of_buildIn {n : SceneNode} {t u : Tag} {p : List Nat}
    (h : buildIn detection ctx n counter = (some t, counter')) (hu : t.at? p = some u) :
    n.shownAt? p = some u.head.source := by
  obtain ⟨m, c, hm, hbuilt⟩ := of_buildIn_at h hu
  rw [hm, source_of_buildIn hbuilt]

end Tag

end Handoff
