/-
# Handoff.Markup.Line — the lines of a component's body

The body of a component is a list of lines. A line has a level, the depth of its tag, and one of four
forms: it opens an element, closes one, is an empty element, or is an element around one run of
characters. Only `Line.text` turns a line into text; the level is then a margin of four spaces and two
more for each level.
-/

import Handoff.Tag.Basic
import Handoff.Text.Identifier

namespace Handoff.Markup

/-- The front of an element: its name, the class it looks up if it looks one up, and its attributes. -/
structure Element where
  name : String
  styleClass : Option String := none
  attributes : List Attribute := []
  deriving DecidableEq, Inhabited

inductive LineForm where
  | opening (element : Element)
  | closing (name : String)
  | empty (element : Element)
  | characters (element : Element) (content : String)
  deriving DecidableEq

structure Line where
  level : Nat
  form : LineForm
  deriving DecidableEq

/-! ## Text -/

/-- A text between braces. -/
def braced (s : String) : String :=
  "\x7b" ++ s ++ "\x7d"

/-- A text between double quotes, as it is. -/
def quoted (s : String) : String :=
  "\"" ++ s ++ "\""

/-- The expression that looks a class up among the imported styles. -/
def styleLookup (className : String) : String :=
  if Text.needsBrackets className then "styles[" ++ quoted className ++ "]"
  else "styles." ++ className

/-- The attribute of the looked-up class, with the space in front of it. -/
def classText : Option String → String
  | some className => " className=" ++ braced (styleLookup className)
  | none => ""

/-- An attribute with the space in front of it. -/
def attributeText (a : Attribute) : String :=
  match a.value with
  | none => " " ++ a.name
  | some value => " " ++ a.name ++ "=" ++ if a.isExpression then braced value else quoted value

/-- An element's name, class and attributes. -/
def Element.text (e : Element) : String :=
  e.name ++ classText e.styleClass ++ String.join (e.attributes.map attributeText)

def LineForm.text : LineForm → String
  | .opening e => "<" ++ e.text ++ ">"
  | .closing name => "</" ++ name ++ ">"
  | .empty e => "<" ++ e.text ++ " />"
  | .characters e content => "<" ++ e.text ++ ">" ++ content ++ "</" ++ e.name ++ ">"

/-- The margin of a line. -/
def indent (level : Nat) : String :=
  String.ofList (List.replicate (4 + 2 * level) ' ')

def Line.text (l : Line) : String :=
  indent l.level ++ l.form.text

end Handoff.Markup
