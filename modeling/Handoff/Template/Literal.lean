/-
# Handoff.Template.Literal — literals among the arguments of a helper

A literal is recognised by its shape and then read as JSON. Shapes are wider than JSON: digits may start
with a needless zero or end with a point, commas may stand where an item is missing, and half a pair of
16-bit units may be escaped. What has the shape of a literal is taken for nothing else, so if JSON does
not have it, the template it stands in cannot be read.

A text may also be quoted with apostrophes. Inside those a quotation mark is plain, and an apostrophe is
escaped.
-/

import Handoff.Json.Reader
import Handoff.Template.Basic

namespace Handoff.Template

open Text (skipSpaces skipChar takeChar takeRun many)

/-! ## Shapes -/

/-- Takes the rest of a quoted text up to its closing quote. Of the two quotes only its own may be
escaped. -/
def takeQuoted (quote : Char) : List Char → Option (List Char)
  | [] => none
  | '\\' :: 'u' :: a :: b :: c :: d :: cs =>
    if (Json.hexUnit? a b c d).isSome then takeQuoted quote cs else none
  | '\\' :: c :: cs =>
    if c = quote ∨ c ≠ '"' ∧ (Json.shortEscape? c).isSome then takeQuoted quote cs else none
  | c :: cs =>
    if c = quote then some cs else if c = '\\' then none else takeQuoted quote cs

/-- Takes a quoted text. -/
def takeText : List Char → Option (List Char)
  | [] => none
  | c :: cs => if c = '"' ∨ c = '\x27' then takeQuoted c cs else none

/-- Takes an exponent: a capital E, and digits with or without a minus sign. -/
def takeExponent (cs : List Char) : Option (List Char) := do
  let rest ← takeChar 'E' cs
  let (_, rest) ← takeRun Char.isDigit (skipChar '-' rest)
  return rest

/-- Takes a number that no further character of a name follows. -/
def takeNumber (cs : List Char) : Option (List Char) := do
  let (_, rest) ← takeRun Char.isDigit (skipChar '-' cs)
  let rest := (skipChar '.' rest).dropWhile Char.isDigit
  let rest := (takeExponent rest).getD rest
  if rest.head?.any isNameChar then none else some rest

/-- Takes one of the words that stand for a value. -/
def takeConstant (cs : List Char) : Option (List Char) := do
  let (word, rest) ← takeRun isNameChar cs
  if String.ofList word ∈ ["null", "true", "false"] then some rest else none

/-- Takes items with commas in front of all but the first, which may be missing, and the mark that closes
them. -/
def takeItems (item : List Char → Option (List Char)) (close : Char) (cs : List Char) :
    Option (List Char) :=
  let following := fun cs => do
    let rest ← takeChar ',' (skipSpaces cs)
    return ((), ← item (skipSpaces rest))
  let cs := skipSpaces cs
  takeChar close (skipSpaces (many following ((item cs).getD cs)).2)

/-- Takes a quoted key, a colon and an item. -/
def takeMember (item : List Char → Option (List Char)) (cs : List Char) : Option (List Char) := do
  let rest ← takeText cs
  let rest ← takeChar ':' (skipSpaces rest)
  item (skipSpaces rest)

/-- Takes what has the shape of a literal, with brackets nested less than `depth` deep. -/
def takeShape : Nat → List Char → Option (List Char)
  | 0, _ => none
  | _ + 1, [] => none
  | depth + 1, c :: cs =>
    if c = '[' then takeItems (takeShape depth) ']' cs
    else if c = '\x7b' then takeItems (takeMember (takeShape depth)) '\x7d' cs
    else takeText (c :: cs) <|> takeNumber (c :: cs) <|> takeConstant (c :: cs)

/-! ## Values -/

/-- The body of a text in apostrophes as the body of one in quotation marks. -/
def requote : List Char → List Char
  | [] => []
  | '\\' :: c :: cs => if c = '\x27' then c :: requote cs else '\\' :: c :: requote cs
  | c :: cs => if c = '"' then '\\' :: '"' :: requote cs else c :: requote cs

/-- The JSON text of a literal. -/
def literalText : List Char → String
  | [] => ""
  | c :: cs =>
    String.ofList (if c = '\x27' then '"' :: requote cs.dropLast ++ ['"'] else c :: cs)

/-- The value of a literal in canonical form, if JSON has it. -/
def literalValue? (written : List Char) : Option Json :=
  (Json.read (literalText written)).toOption.map Json.canonical

end Handoff.Template
