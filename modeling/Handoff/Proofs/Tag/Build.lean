/-
# Handoff.Proofs.Tag.Build — the equations of building

Building recurses over five kinds of nodes and over lists of siblings. Here it is put into the form that
proofs use: a visible node becomes one tag, whose head is a function of the node and its style and whose
children are built from the node's children unless it is an image; an invisible node becomes nothing and
takes nothing. Later modules do not unfold `buildIn` or `buildList`.
-/

import Handoff.Proofs.Scene.Tree
import Handoff.Tag.Build

namespace Handoff.Tag

variable {detection : Detection} {ctx : StyleContext} {counter counter' : Counter}

/-! ## One node -/

/-- All kinds of nodes are built alike; a leaf has an empty list of children. -/
theorem buildIn_eq_assemble (n : SceneNode) :
    buildIn detection ctx n counter =
      assemble detection ctx n counter (buildList detection (contextBelow ctx n) n.children) := by
  have hleaf : (fun c => (([] : List Tag), c)) = buildList detection (contextBelow ctx n) [] := by
    funext c
    rw [buildList]
  cases n with
  | container role layer box children => rw [buildIn]; rfl
  | group layer children => rw [buildIn]; rfl
  | other kind layer children => rw [buildIn]; rfl
  | shape form layer geometry => rw [buildIn, hleaf]; rfl
  | text layer run => rw [buildIn, hleaf]; rfl

/-- The head of a visible node's tag. -/
def builtHead (detection : Detection) (ctx : StyleContext) (n : SceneNode) (counter : Counter) : Head :=
  { headOf n detection ctx.parent.isNone with style := (n.inferStyle ctx counter).1 }

/-- What is built below a visible node, and the counter behind it. -/
def builtBelow (detection : Detection) (ctx : StyleContext) (n : SceneNode) (counter : Counter) :
    List Tag × Counter :=
  if n.isImageLike then ([], (n.inferStyle ctx counter).2)
  else buildList detection (contextBelow ctx n) n.children (n.inferStyle ctx counter).2

theorem buildIn_of_visible {n : SceneNode} (h : n.visible) :
    buildIn detection ctx n counter =
      (some ⟨builtHead detection ctx n counter, (builtBelow detection ctx n counter).1⟩,
        (builtBelow detection ctx n counter).2) := by
  rw [buildIn_eq_assemble, assemble, if_pos h]
  rfl

theorem buildIn_of_hidden {n : SceneNode} (h : ¬n.visible) :
    buildIn detection ctx n counter = (none, counter) := by
  rw [buildIn_eq_assemble, assemble, if_neg h]

/-- A tag is built exactly from a visible node. -/
theorem buildIn_isSome (n : SceneNode) : (buildIn detection ctx n counter).1.isSome = n.visible := by
  by_cases h : n.visible
  · simp [buildIn_of_visible h, h]
  · simp [buildIn_of_hidden h, h]

/-- A visible root has a tree. -/
theorem exists_build {root : SceneNode} (unit : LengthUnit) (detection : Detection) (start : Counter)
    (hroot : root.visible) : ∃ t stop, build root unit detection start = (some t, stop) :=
  ⟨_, _, buildIn_of_visible hroot⟩

/-- Everything that is known of a tag that was built. -/
theorem of_buildIn {n : SceneNode} {t : Tag} (h : buildIn detection ctx n counter = (some t, counter')) :
    n.visible ∧ t.head = builtHead detection ctx n counter ∧
      builtBelow detection ctx n counter = (t.children, counter') := by
  by_cases hv : n.visible
  · rw [buildIn_of_visible hv] at h
    cases h
    exact ⟨hv, rfl, rfl⟩
  · rw [buildIn_of_hidden hv] at h
    cases h

/-- A tag keeps the node that it is built from. -/
theorem source_of_buildIn {n : SceneNode} {t : Tag} (h : buildIn detection ctx n counter = (some t, counter')) :
    t.head.source = n := by
  rw [(of_buildIn h).2.1]
  rfl

/-! ## Siblings -/

/-- The context of the next visible sibling. -/
def nextSibling (ctx : StyleContext) : StyleContext :=
  { ctx with siblingIndex := ctx.siblingIndex + 1 }

theorem buildList_nil : buildList detection ctx [] counter = ([], counter) := by
  rw [buildList]

theorem buildList_cons_of_hidden {n : SceneNode} (ns : List SceneNode) (h : ¬n.visible) :
    buildList detection ctx (n :: ns) counter = buildList detection ctx ns counter := by
  rw [buildList, buildIn_of_hidden h]

/-- A visible node takes one place among its siblings. -/
theorem of_buildList_cons {n : SceneNode} {ns : List SceneNode} {ts : List Tag} (hv : n.visible)
    (h : buildList detection ctx (n :: ns) counter = (ts, counter')) :
    ∃ t c us, ts = t :: us ∧ buildIn detection ctx n counter = (some t, c) ∧
      buildList detection (nextSibling ctx) ns c = (us, counter') := by
  obtain ⟨t, c, hbuilt⟩ : ∃ t c, buildIn detection ctx n counter = (some t, c) :=
    ⟨_, _, buildIn_of_visible hv⟩
  rw [buildList, hbuilt] at h
  simp only [Prod.mk.injEq] at h
  obtain ⟨rfl, rfl⟩ := h
  exact ⟨t, c, _, rfl, hbuilt, rfl⟩

/-- The tag of a visible node stands in front of those of its later siblings. -/
theorem buildList_cons_of_built {n : SceneNode} {ns : List SceneNode} {t : Tag}
    (h : buildIn detection ctx n counter = (some t, counter')) :
    buildList detection ctx (n :: ns) counter =
      (t :: (buildList detection (nextSibling ctx) ns counter').1,
        (buildList detection (nextSibling ctx) ns counter').2) := by
  rw [buildList, h]
  rfl

/-- What is collected from the tags of siblings is what is collected from the nodes, if invisible nodes
contribute nothing and every visible one contributes what its tag does. -/
theorem flatMap_of_buildList {α : Type} {f : Tag → List α} {g : SceneNode → List α}
    {ns : List SceneNode} {ts : List Tag} (hhidden : ∀ n, ¬n.visible → g n = [])
    (hbuilt : ∀ n ∈ ns, ∀ ⦃ctx counter counter' t⦄,
      buildIn detection ctx n counter = (some t, counter') → f t = g n)
    (h : buildList detection ctx ns counter = (ts, counter')) : ts.flatMap f = ns.flatMap g := by
  induction ns generalizing ctx counter ts with
  | nil =>
    rw [buildList_nil] at h
    cases h
    rfl
  | cons n ns ih =>
    have hothers := fun m hm => hbuilt m (List.mem_cons_of_mem n hm)
    by_cases hv : n.visible
    · obtain ⟨t, c, us, rfl, hfirst, hrest⟩ := of_buildList_cons hv h
      rw [List.flatMap_cons, List.flatMap_cons, hbuilt n List.mem_cons_self hfirst, ih hothers hrest]
    · rw [buildList_cons_of_hidden ns hv] at h
      rw [List.flatMap_cons, hhidden n hv, List.nil_append]
      exact ih hothers h

end Handoff.Tag
