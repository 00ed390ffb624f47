/-
# Handoff.Text.Front — reading from the front of a text

A text is read piece by piece: each function here looks at the front of a list of characters, and gives
what it took from there together with the text behind it, or nothing where the front is not what it
looks for. `skip…` drops what may or may not be there, `take…` insists on it. `many` repeats a step; it
ends because a step that leaves as much text as it found is not repeated.
-/

namespace Handoff.Text

/-- A space, a tab or a line end. -/
def isSpace (c : Char) : Bool :=
  c == ' ' || c == '\t' || c == '\r' || c == '\n'

def skipSpaces (cs : List Char) : List Char :=
  cs.dropWhile isSpace

/-- Drops one given character if it comes first. -/
def skipChar (c : Char) : List Char → List Char
  | [] => []
  | d :: ds => if d = c then ds else d :: ds

/-- Takes one given character. -/
def takeChar (c : Char) : List Char → Option (List Char)
  | [] => none
  | d :: ds => if d = c then some ds else none

/-- Takes the longest run of characters that a test accepts; there must be one. -/
def takeRun (accepts : Char → Bool) (cs : List Char) : Option (List Char × List Char) :=
  let found := cs.takeWhile accepts
  if found.isEmpty then none else some (found, cs.dropWhile accepts)

/-- Repeats a step until it fails or leaves as much text as there was. -/
def many {α : Type} (step : List Char → Option (α × List Char)) (cs : List Char) :
    List α × List Char :=
  match step cs with
  | none => ([], cs)
  | some (a, rest) =>
    if rest.length < cs.length then
      let (found, rest) := many step rest
      (a :: found, rest)
    else ([], cs)
termination_by cs.length

/-- The part of a text in front of the rest that reading it left. -/
def before (rest cs : List Char) : List Char :=
  cs.take (cs.length - rest.length)

end Handoff.Text
