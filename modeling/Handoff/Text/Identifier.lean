/-
# Handoff.Text.Identifier — identifiers made from display names

A display name is arbitrary text. `sanitize` removes from it the characters that no class selector and
no element name may hold: blanks and the four signs `=`, `&`, `#` and `/`. What is left may still hold
a dot, a hyphen or an underscore; a lookup of such a name has to be written with brackets, and
`needsBrackets` says when.
-/

import Handoff.Text.Blank

namespace Handoff.Text

/-- Whether `sanitize` removes the character. -/
def isSpecial (c : Char) : Bool :=
  isBlank c || c == '=' || c == '&' || c == '#' || c == '/'

/-- Removes blanks and the signs `=`, `&`, `#`, `/`. -/
def sanitize (name : String) : String :=
  String.ofList (name.toList.filter fun c => !isSpecial c)

/-- Whether a character keeps a name from being looked up after a dot. -/
def forcesBrackets (c : Char) : Bool :=
  c == '.' || c == '-' || c == '_'

/-- Whether a name has to be looked up with brackets. -/
def needsBrackets (name : String) : Bool :=
  name.toList.any forcesBrackets

end Handoff.Text
