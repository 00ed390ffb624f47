/-
# Handoff.Tag.Basic — the tag tree

A tag is what becomes an element of the markup: a name, the flags that decide how it is written, its
attributes, its style record, and the scene node that it stands for. All of that is the tag's `Head`; a
tag is a head and its children. Keeping the head apart lets a statement speak of everything about a tag
except what is below it.
-/

import Handoff.Scene.Node
import Handoff.Style.Record

namespace Handoff

/-- An attribute of an element. Without a value only its name is written. -/
structure Attribute where
  name : String
  value : Option String
  /-- Whether the value is an expression and not a text. -/
  isExpression : Bool
  deriving DecidableEq, Inhabited

def Attribute.text (name value : String) : Attribute :=
  ⟨name, some value, false⟩

def Attribute.expression (name value : String) : Attribute :=
  ⟨name, some value, true⟩

/-- Everything about a tag but its children. -/
structure Tag.Head where
  name : String
  isText : Bool := false
  characters : Option String := none
  isImage : Bool := false
  /-- Whether the tag refers to a component. -/
  isInstance : Bool := false
  /-- Whether the tag defines a component. -/
  isDefinition : Bool := false
  attributes : List Attribute := []
  style : StyleRecord := .empty
  source : SceneNode

structure Tag where
  head : Tag.Head
  children : List Tag

namespace Tag

def name (t : Tag) : String :=
  t.head.name

instance : Inhabited Tag := ⟨⟨{ name := "", source := default }, []⟩⟩

end Tag

end Handoff
