/-
# Handoff.Tag.Component — components declared by the user

The user may declare that layers of some name are components of their own. Such a layer is replaced by an
instance of the component: it takes the component's name and properties and loses what was below it. The
search starts below the root, looks at no tag below an instance, and stops at every replacement, so
exactly the outermost matches are replaced.
-/

import Handoff.Tag.Basic
import Handoff.Text.Identifier

namespace Handoff

/-- A property that a declared component is used with. -/
structure ComponentProp where
  name : String
  value : String
  isExpression : Bool := false
  deriving DecidableEq, Inhabited

/-- A component declared by the user. -/
structure UserComponent where
  name : String
  props : List ComponentProp := []
  deriving DecidableEq, Inhabited

def ComponentProp.attribute (p : ComponentProp) : Attribute :=
  if p.isExpression then .expression p.name p.value else .text p.name p.value

namespace Tag

/-- Whether a component is declared for a tag: by the name of its layer or by the name of the tag. -/
def Head.isDeclaredBy (h : Head) (c : UserComponent) : Bool :=
  c.name == h.source.name || c.name == h.name

/-- The head of a tag that has become an instance of a declared component. -/
def Head.instantiate (h : Head) (c : UserComponent) : Head :=
  { h with
    name := Text.sanitize c.name
    isInstance := true
    isDefinition := false
    isImage := false
    attributes := c.props.map ComponentProp.attribute }

mutual

/-- Replaces the outermost matches at and below a tag that is not the root. -/
def substitute (components : List UserComponent) : Tag → Tag
  | ⟨head, children⟩ =>
    if head.isInstance then ⟨head, children⟩
    else
      match components.find? head.isDeclaredBy with
      | some c => ⟨head.instantiate c, []⟩
      | none => ⟨head, substituteList components children⟩

def substituteList (components : List UserComponent) : List Tag → List Tag
  | [] => []
  | t :: ts => substitute components t :: substituteList components ts

end

/-- Replaces the outermost matches below the root. -/
def identify (components : List UserComponent) : Tag → Tag
  | ⟨head, children⟩ => ⟨head, substituteList components children⟩

end Tag

end Handoff
