/-
# Handoff.Proofs.Tag.Heads — trees whose heads are viewed

Two trees are compared by saying what is compared of each tag: a view of heads, applied to every tag of
both. Trees with one view have one shape, since a view never sees what is below a tag. Markup is written
from a view itself: it reads neither the values of declarations nor the nodes that tags stand for, so
whatever a view changes of these two, the module stays the same. Declared components are looked for by name,
so they too are found in a view that leaves names alone.
-/

import Handoff.Markup.Module
import Handoff.Proofs.Tag.Definition
import Handoff.Proofs.Tag.Tree

namespace Handoff

variable {g : Tag.Head → Tag.Head}

namespace Tag

/-! ## Views -/

mutual

/-- The tree with the view of each head in its place. -/
def mapHead (g : Head → Head) : Tag → Tag
  | ⟨head, children⟩ => ⟨g head, mapHeadList g children⟩

def mapHeadList (g : Head → Head) : List Tag → List Tag
  | [] => []
  | t :: ts => mapHead g t :: mapHeadList g ts

end

theorem mapHeadList_eq_map (ts : List Tag) : mapHeadList g ts = ts.map (mapHead g) := by
  induction ts with
  | nil => rw [mapHeadList, List.map_nil]
  | cons t ts ih => rw [mapHeadList, List.map_cons, ih]

theorem mapHead_eq (head : Head) (children : List Tag) :
    mapHead g ⟨head, children⟩ = ⟨g head, children.map (mapHead g)⟩ := by
  rw [mapHead, mapHeadList_eq_map]

@[simp]
theorem head_mapHead (t : Tag) : (t.mapHead g).head = g t.head := by
  obtain ⟨head, children⟩ := t
  rw [mapHead_eq]

@[simp]
theorem children_mapHead (t : Tag) : (t.mapHead g).children = t.children.map (mapHead g) := by
  obtain ⟨head, children⟩ := t
  rw [mapHead_eq]

/-- Trees with one view of the root and one view of what is below it have one view. -/
theorem mapHead_congr {g' : Head → Head} {t t' : Tag} (hhead : g' t'.head = g t.head)
    (hchildren : t'.children.map (mapHead g') = t.children.map (mapHead g)) :
    t'.mapHead g' = t.mapHead g := by
  obtain ⟨head, children⟩ := t
  obtain ⟨head', children'⟩ := t'
  rw [mapHead_eq, mapHead_eq]
  exact congr (congrArg mk hhead) hchildren

/-- A view that leaves every head of a tree as it is leaves the tree. -/
theorem mapHead_eq_self {t : Tag} (h : ∀ u ∈ t.preorder, g u.head = u.head) : t.mapHead g = t := by
  induction t using induction_on_children with
  | step head children ih =>
    have hchildren : children.map (mapHead g) = children.map id := by
      apply List.map_congr_left
      intro u hu
      exact ih u hu fun v hv => h v (mem_preorder_of_mem_children hu hv)
    rw [mapHead_eq, h _ (self_mem_preorder _), hchildren, List.map_id]

theorem mapHead_id (t : Tag) : t.mapHead id = t :=
  mapHead_eq_self fun _ _ => rfl

/-- Pre-order visits the views of the tags that it visited before. -/
theorem preorder_mapHead (t : Tag) : (t.mapHead g).preorder = t.preorder.map (mapHead g) := by
  induction t using induction_on_children with
  | step head children ih =>
    rw [preorder_eq_cons, preorder_eq_cons, List.map_cons, preorderList_eq_flatMap,
      preorderList_eq_flatMap, children_mapHead, List.map_flatMap, List.flatMap_map, List.flatMap_def,
      List.flatMap_def, List.map_congr_left ih]

theorem preorderList_mapHead (ts : List Tag) :
    preorderList (ts.map (mapHead g)) = (preorderList ts).map (mapHead g) := by
  rw [preorderList_eq_flatMap, preorderList_eq_flatMap, List.flatMap_map, List.map_flatMap]
  exact congrArg ts.flatMap (funext preorder_mapHead)

/-! ## Positions in a view -/

/-- At each position stands the view of the tag there. -/
theorem at?_mapHead (t : Tag) (p : List Nat) : (t.mapHead g).at? p = (t.at? p).map (mapHead g) := by
  induction p generalizing t with
  | nil => rfl
  | cons i p ih =>
    rw [at?, at?, children_mapHead, List.getElem?_map]
    cases t.children[i]? with
    | none => rfl
    | some child => exact ih child

theorem before_mapHead (t : Tag) (p : List Nat) : (t.mapHead g).before p = (t.before p).map (mapHead g) := by
  induction p generalizing t with
  | nil => rfl
  | cons i p ih =>
    rw [before, before, children_mapHead, List.getElem?_map, ← List.map_take, preorderList_mapHead,
      List.map_cons, List.map_append]
    cases t.children[i]? with
    | none => rfl
    | some child => simp only [Option.map_some, ih]

theorem numberedIn_mapHead (hg : ∀ h, (g h).isNumbered = h.isNumbered) (ts : List Tag) :
    numberedIn (ts.map (mapHead g)) = numberedIn ts := by
  rw [numberedIn, List.countP_map]
  refine List.countP_congr fun t _ => ?_
  rw [Function.comp_apply, head_mapHead, hg]

/-- Trees of one shape have one view if the tags at each position have. -/
theorem mapHead_eq_of_at? {g' : Head → Head} {t t' : Tag} (hshape : t.mapHead g = t'.mapHead g)
    (h : ∀ p u u', t.at? p = some u → t'.at? p = some u' → g' u.head = g' u'.head) :
    t.mapHead g' = t'.mapHead g' := by
  induction t using induction_on_children generalizing t' with
  | step head children ih =>
    have hchildren : children.map (mapHead g) = t'.children.map (mapHead g) := by
      rw [← children_mapHead t', ← hshape, children_mapHead]
    refine mapHead_congr (h [] _ _ rfl rfl) (List.ext_getElem? fun i => ?_)
    have hat := congrArg (fun ts : List Tag => ts[i]?) hchildren
    simp only [List.getElem?_map] at hat ⊢
    cases hchild : children[i]? with
    | none =>
      rw [hchild, Option.map_none, eq_comm, Option.map_eq_none_iff] at hat
      rw [hat]
    | some child =>
      rw [hchild, Option.map_some, eq_comm, Option.map_eq_some_iff] at hat
      obtain ⟨child', hchild', hview⟩ := hat
      rw [hchild', Option.map_some, Option.map_some]
      refine congrArg some (ih child (List.mem_of_getElem? hchild) hview.symm fun p u u' hu hu' => ?_)
      exact h (i :: p) u u' (at?_cons_eq_some_iff.mpr ⟨child, hchild, hu⟩)
        (at?_cons_eq_some_iff.mpr ⟨child', hchild', hu'⟩)

/-! ## Declared components in a view -/

/-- A view that replacing tags by declared components does not see. -/
structure KeepsDeclared (g : Head → Head) : Prop where
  isInstance : ∀ h, (g h).isInstance = h.isInstance
  isDeclaredBy : ∀ h, (g h).isDeclaredBy = h.isDeclaredBy
  instantiate : ∀ h c, (g h).instantiate c = g (h.instantiate c)

theorem substitute_mapHead (hg : KeepsDeclared g) (components : List UserComponent) (t : Tag) :
    substitute components (t.mapHead g) = (substitute components t).mapHead g := by
  induction t using induction_on_children with
  | step head children ih =>
    have hinstance : (mapHead g ⟨head, children⟩).head.isInstance = head.isInstance := by
      rw [head_mapHead, hg.isInstance]
    have hfind : components.find? (mapHead g ⟨head, children⟩).head.isDeclaredBy =
        components.find? head.isDeclaredBy := by
      rw [head_mapHead, hg.isDeclaredBy]
    rcases substitute_cases components ⟨head, children⟩ with
      ⟨htop, hsame⟩ | ⟨hplain, c, hc, hnew⟩ | ⟨hplain, hnone, hsearched⟩
    · rw [hsame, substitute_of_isInstance (hinstance.trans htop)]
    · rw [hnew, substitute_of_find?_eq_some (hinstance ▸ hplain) (hfind.trans hc), head_mapHead,
        hg.instantiate, mapHead_eq, List.map_nil]
    · rw [hsearched, substitute_of_find?_eq_none (hinstance ▸ hplain) (hfind.trans hnone), head_mapHead,
        children_mapHead, mapHead_eq, List.map_map, List.map_map]
      exact congrArg (mk (g head)) (List.map_congr_left ih)

/-- Declared components are found in a view where they were found before. -/
theorem identify_mapHead (hg : KeepsDeclared g) (components : List UserComponent) (t : Tag) :
    identify components (t.mapHead g) = (identify components t).mapHead g := by
  rw [identify_eq, identify_eq, head_mapHead, children_mapHead, mapHead_eq, List.map_map, List.map_map]
  exact congrArg (mk (g t.head)) (List.map_congr_left fun u _ => substitute_mapHead hg components u)

end Tag

/-! ## Markup of a view -/

namespace Markup

theorem linesOfList_eq_flatMap (dialect : Dialect) (level : Nat) (ts : List Tag) :
    linesOfList dialect level ts = ts.flatMap (lines dialect level) := by
  induction ts with
  | nil => rw [linesOfList, List.flatMap_nil]
  | cons t ts ih => rw [linesOfList, List.flatMap_cons, ih]

theorem instanceNamesOfList_eq_flatMap (ts : List Tag) :
    instanceNamesOfList ts = ts.flatMap instanceNames := by
  induction ts with
  | nil => rw [instanceNamesOfList, List.flatMap_nil]
  | cons t ts ih => rw [instanceNamesOfList, List.flatMap_cons, ih]

/-- A view that changes at most the values of declarations and the nodes that tags stand for. -/
structure KeepsWritten (g : Tag.Head → Tag.Head) : Prop where
  head : ∀ h, g h = { h with style := (g h).style, source := (g h).source }
  className : ∀ h, (g h).style.className = h.style.className
  isEmpty : ∀ h, (g h).style.isEmpty = h.style.isEmpty

namespace KeepsWritten

variable (hg : KeepsWritten g) (h : Tag.Head)

include hg

theorem name : (g h).name = h.name := by
  rw [hg.head]

theorem isInstance : (g h).isInstance = h.isInstance := by
  rw [hg.head]

theorem instanceElement : instanceElement (g h) = Markup.instanceElement h := by
  rw [hg.head]
  rfl

theorem elementName (dialect : Dialect) : elementName dialect (g h) = Markup.elementName dialect h := by
  rw [hg.head]
  rfl

/-- The element of a tag is made from its class name and not from its declarations. -/
theorem elementOf (dialect : Dialect) : elementOf dialect (g h) = Markup.elementOf dialect h := by
  have hclass : styleClass? dialect (g h) = styleClass? dialect h := by
    unfold styleClass?
    rw [hg.className, hg.isEmpty, hg.head]
    rfl
  have hattributes : (g h).attributes = h.attributes := by
    rw [hg.head]
  unfold Markup.elementOf
  rw [hg.elementName, hclass, hattributes]

theorem leafLine (dialect : Dialect) (level : Nat) :
    leafLine dialect level (g h) = Markup.leafLine dialect level h := by
  have htext : (g h).isText = h.isText := by
    rw [hg.head]
  have hcharacters : (g h).characters = h.characters := by
    rw [hg.head]
  unfold Markup.leafLine
  rw [hg.elementOf, htext, hcharacters]

end KeepsWritten

variable (hg : KeepsWritten g)

include hg

theorem lines_mapHead (dialect : Dialect) (level : Nat) (t : Tag) :
    lines dialect level (t.mapHead g) = lines dialect level t := by
  induction t using Tag.induction_on_children generalizing level with
  | step head children ih =>
    have hbelow : (children.map (Tag.mapHead g)).flatMap (lines dialect (level + 1)) =
        children.flatMap (lines dialect (level + 1)) := by
      rw [List.flatMap_map, List.flatMap_def, List.flatMap_def,
        List.map_congr_left fun u hu => ih u hu (level + 1)]
    rw [Tag.mapHead_eq, lines, lines, linesOfList_eq_flatMap, linesOfList_eq_flatMap, hbelow,
      List.isEmpty_map, hg.isInstance, hg.instanceElement, hg.leafLine, hg.elementOf, hg.elementName]

theorem instanceNames_mapHead (t : Tag) : instanceNames (t.mapHead g) = instanceNames t := by
  induction t using Tag.induction_on_children with
  | step head children ih =>
    rw [Tag.mapHead_eq, instanceNames, instanceNames, instanceNamesOfList_eq_flatMap,
      instanceNamesOfList_eq_flatMap, List.flatMap_map, List.flatMap_def, List.flatMap_def,
      List.map_congr_left ih, hg.isInstance, hg.name]

/-- **A module is written from the view.** -/
theorem moduleText_mapHead (dialect : Dialect) (t : Tag) :
    moduleText dialect (t.mapHead g) = moduleText dialect t := by
  have hname : (t.mapHead g).name = t.name := by
    show (t.mapHead g).head.name = t.head.name
    rw [Tag.head_mapHead, hg.name]
  have himports : imports (t.mapHead g) = imports t := by
    rw [imports, instanceNames_mapHead hg, imports]
  have hbody : body dialect (t.mapHead g) = body dialect t := by
    rw [body, lines_mapHead hg, body]
  rw [moduleText, moduleText, preamble, preamble, componentName, componentName, himports, hbody, hname]

end Markup

end Handoff
