/-
# Handoff.Tag.Build — from a scene to its tag tree

Every visible node becomes a tag and every invisible one is left out together with what is below it. An
image keeps no children. Siblings are numbered among the visible ones, and the counter runs through the
tree in pre-order: a node takes its number before its children do.
-/

import Handoff.Style.Inference
import Handoff.Tag.Basic
import Handoff.Text.Identifier

namespace Handoff

/-- Whether instances and component definitions are recognised as such. -/
inductive Detection where
  | identify
  | ignore
  deriving DecidableEq, Inhabited

namespace Tag

/-- The head of a node's tag, without its style. -/
def headOf (n : SceneNode) (detection : Detection) (isRoot : Bool) : Head :=
  { name := if n.isImageLike then "img" else Text.sanitize n.name
    isText := n.characters?.isSome
    characters := n.characters?
    isImage := n.isImageLike
    isInstance := detection == .identify && n.isInstance
    isDefinition := detection == .identify && !isRoot && n.isComponent
    attributes := if n.isImageLike then [.text "src" ""] else []
    source := n }

/-- The tag of a visible node, from its style and what is built below it. An image has nothing below. -/
def assemble (detection : Detection) (ctx : StyleContext) (n : SceneNode) (counter : Counter)
    (below : Counter → List Tag × Counter) : Option Tag × Counter :=
  if n.visible then
    let (style, counter) := n.inferStyle ctx counter
    let (children, counter) := if n.isImageLike then ([], counter) else below counter
    (some ⟨{ headOf n detection ctx.parent.isNone with style }, children⟩, counter)
  else (none, counter)

/-- The context of a node's first child. -/
def contextBelow (ctx : StyleContext) (n : SceneNode) : StyleContext :=
  { unit := ctx.unit, depth := ctx.depth + 1, siblingIndex := 0, parent := some n }

mutual

/-- The tag of a node and the counter behind its tree; no tag if the node is invisible. -/
def buildIn (detection : Detection) (ctx : StyleContext) :
    SceneNode → Counter → Option Tag × Counter
  | n@(.container _ _ _ children), counter =>
    assemble detection ctx n counter (buildList detection (contextBelow ctx n) children)
  | n@(.group _ children), counter =>
    assemble detection ctx n counter (buildList detection (contextBelow ctx n) children)
  | n@(.other _ _ children), counter =>
    assemble detection ctx n counter (buildList detection (contextBelow ctx n) children)
  | n@(.shape _ _ _), counter => assemble detection ctx n counter fun c => ([], c)
  | n@(.text _ _), counter => assemble detection ctx n counter fun c => ([], c)

/-- The tags of siblings, the first of which stands in the given context. -/
def buildList (detection : Detection) (ctx : StyleContext) :
    List SceneNode → Counter → List Tag × Counter
  | [], counter => ([], counter)
  | n :: ns, counter =>
    match buildIn detection ctx n counter with
    | (some t, counter) =>
      let next := { ctx with siblingIndex := ctx.siblingIndex + 1 }
      let (ts, counter) := buildList detection next ns counter
      (t :: ts, counter)
    | (none, counter) => buildList detection ctx ns counter

end

/-- The tag tree of a scene; none if its root is invisible. -/
def build (root : SceneNode) (unit : LengthUnit) (detection : Detection) (counter : Counter) :
    Option Tag × Counter :=
  buildIn detection { unit } root counter

end Tag

end Handoff
