/-
# Handoff.Template.Basic — a small template language

A template is text with tags between double or triple braces. What a tag gives is inserted as it is:
nothing is escaped, and inserted text is not searched for tags.

A tag holds a call of a helper or a value. A call gives a helper at least one argument; a value is a
path into the data, or a call in parentheses. Arguments are values and literals. Which helpers there are
is no matter of reading, so a tag that holds nothing but a helper's name is read as a path, and a path
is kept with its written form.
-/

import Handoff.Json.Value

namespace Handoff

/-- What stands for a value in a tag. -/
inductive Template.Expr where
  /-- A path into the data, and how it is written. -/
  | path (written : String) (keys : List String)
  /-- A name behind an at sign. Such names belong to what surrounds a tag, and nothing does. -/
  | surrounding (name : String)
  | literal (value : Json)
  | call (helper : String) (arguments : List Template.Expr)

/-- A piece of a template. -/
inductive Template.Part where
  | text (content : String)
  | call (helper : String) (arguments : List Template.Expr)
  | value (expr : Template.Expr)

structure Template where
  parts : List Template.Part

/-- The characters of names in tags: letters, digits, the hyphen, the underscore and the dollar sign of
ASCII, and every character beyond it. -/
def Template.isNameChar (c : Char) : Bool :=
  c.isAlphanum || c == '-' || c == '_' || c == '$' || 0x80 ≤ c.toNat

end Handoff
