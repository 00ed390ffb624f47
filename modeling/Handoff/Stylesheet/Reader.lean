/-
# Handoff.Stylesheet.Reader — reading flat rules

The reader accepts a sequence of rules: a selector and declarations between braces, without nesting and
without comments. Its parts are functions from a text to what they found and the text behind it. A rule
is read whole or not at all: where no further rule can be read, the reader is done if only spaces are
left, and otherwise reports the text from there on.

Two notions of blank meet here. Between the parts of a rule only spaces, tabs and line ends are skipped;
the ends of selectors and values lose every blank character.
-/

import Handoff.Text.Blank
import Handoff.Text.Front

namespace Handoff.Stylesheet

open Text (skipSpaces skipChar takeChar takeRun many)

structure Declaration where
  property : String
  value : String
  deriving DecidableEq, Inhabited

structure Rule where
  selector : String
  declarations : List Declaration
  deriving DecidableEq, Inhabited

/-! ## Parts -/

/-- Reads the longest run of characters that a test accepts, trimmed; a run of blanks only is refused. -/
def takeTrimmed (accepts : Char → Bool) (cs : List Char) : Option (List Char × List Char) :=
  let found := Text.trim (cs.takeWhile accepts)
  if found.isEmpty then none else some (found, cs.dropWhile accepts)

def isSelectorChar (c : Char) : Bool :=
  c != '\x7b' && c != '\x7d'

def isValueChar (c : Char) : Bool :=
  c != ';' && c != '\x7d'

/-- The characters of a property: ASCII letters, ASCII digits and the hyphen. -/
def isPropertyChar (c : Char) : Bool :=
  c.isAlphanum || c == '-'

/-! ## Declarations and rules -/

/-- Reads a property, a colon and a value, with or without a semicolon. -/
def takeDeclaration (cs : List Char) : Option (Declaration × List Char) := do
  let (property, rest) ← takeRun isPropertyChar (skipSpaces cs)
  let rest ← takeChar ':' (skipSpaces rest)
  let (value, rest) ← takeTrimmed isValueChar (skipSpaces rest)
  return (⟨String.ofList property, String.ofList value⟩, skipChar ';' rest)

/-- Reads a selector and its declarations between braces. -/
def takeRule (cs : List Char) : Option (Rule × List Char) := do
  let (selector, rest) ← takeTrimmed isSelectorChar (skipSpaces cs)
  let rest ← takeChar '\x7b' rest
  let (declarations, rest) := many takeDeclaration rest
  let rest ← takeChar '\x7d' (skipSpaces rest)
  return (⟨String.ofList selector, declarations⟩, rest)

/-! ## Sheets -/

/-- Reads a whole text as rules. The error is the text left after the last whole rule and the spaces
behind it. -/
def readRules (cs : List Char) : Except (List Char) (List Rule) :=
  let (rules, rest) := many takeRule cs
  let rest := skipSpaces rest
  if rest.isEmpty then .ok rules else .error rest

/-- Reads a whole string as rules. -/
def rulesOf (css : String) : Except String (List Rule) :=
  (readRules css.toList).mapError String.ofList

end Handoff.Stylesheet
