/-
# Handoff.Markup.Body — from a tag tree to lines

Two dialects share one recursion. In the element-based one a tag becomes a plain element and looks its
class up; in the component-based one it becomes a component of its own name. A component definition is
written by name in both. An instance is an empty element whatever is below it.
-/

import Handoff.Markup.Line
import Handoff.Text.Uppercase

namespace Handoff.Markup

inductive Dialect where
  /-- Plain elements that look their classes up. -/
  | elementBased
  /-- One component for each tag. -/
  | componentBased
  deriving DecidableEq, Inhabited

/-! ## Names -/

/-- Whether a list of characters occurs in another without a gap. -/
def occursIn (needle : List Char) : List Char → Bool
  | [] => needle.isEmpty
  | c :: cs => needle.isPrefixOf (c :: cs) || occursIn needle cs

/-- Whether a word of small letters occurs in a name, in whatever case. The words asked for are ASCII and
have no `k`. Of the capitals beyond ASCII only the dotted `İ` has one of their letters in its small form,
and there it is followed by a mark that none of the words has, so lowering ASCII capitals is enough. -/
def mentions (name word : String) : Bool :=
  occursIn word.toList (name.toList.map Char.toLower)

/-- The plain element that a name suggests. -/
def guessElement (name : String) : String :=
  if mentions name "section" then "section"
  else if mentions name "article" then "article"
  else "div"

/-- Whether a tag is written as a plain element. -/
def isPlain (dialect : Dialect) (h : Tag.Head) : Bool :=
  dialect == .elementBased && !h.isDefinition

/-- The name of the element of a tag that is no instance. -/
def elementName (dialect : Dialect) (h : Tag.Head) : String :=
  if isPlain dialect h then
    if h.isText then "p" else if h.isImage then "img" else guessElement h.name
  else if h.isText then "Text"
  else Text.sanitize (Text.capitalize (Text.dropBlanks h.name))

/-- The name of the element of an instance. -/
def instanceName (h : Tag.Head) : String :=
  Text.capitalize (Text.sanitize h.name)

/-- The class that a tag looks up. -/
def styleClass? (dialect : Dialect) (h : Tag.Head) : Option String :=
  if isPlain dialect h && !h.style.isEmpty then some (Text.sanitize h.style.className) else none

/-- The element of a tag that is no instance. -/
def elementOf (dialect : Dialect) (h : Tag.Head) : Element :=
  { name := elementName dialect h, styleClass := styleClass? dialect h, attributes := h.attributes }

/-- The element of an instance. -/
def instanceElement (h : Tag.Head) : Element :=
  { name := instanceName h, attributes := h.attributes }

/-! ## Lines -/

/-- The line of a tag without children. -/
def leafLine (dialect : Dialect) (level : Nat) (h : Tag.Head) : Line :=
  if h.isText then ⟨level, .characters (elementOf dialect h) (h.characters.getD "")⟩
  else ⟨level, .empty (elementOf dialect h)⟩

mutual

/-- The lines of a tag tree whose root stands at the given level. -/
def lines (dialect : Dialect) (level : Nat) : Tag → List Line
  | ⟨head, children⟩ =>
    if head.isInstance then [⟨level, .empty (instanceElement head)⟩]
    else if children.isEmpty then [leafLine dialect level head]
    else
      ⟨level, .opening (elementOf dialect head)⟩
        :: (linesOfList dialect (level + 1) children
          ++ [⟨level, .closing (elementName dialect head)⟩])

def linesOfList (dialect : Dialect) (level : Nat) : List Tag → List Line
  | [] => []
  | t :: ts => lines dialect level t ++ linesOfList dialect level ts

end

/-- The body of a component: the lines of its tag tree. -/
def body (dialect : Dialect) (t : Tag) : String :=
  "\n".intercalate ((lines dialect 0 t).map Line.text)

end Handoff.Markup
