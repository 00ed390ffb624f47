/-
# Handoff.Template.Reader — reading templates

A template is read from the front, part by part, until the text ends; a text that cannot be read to its
end is no template. Outside of tags only two braces in a row mean anything, and a backslash in front of
them.

Inside of a tag spaces may stand between any two of its pieces, but not in a path. Wherever more than one
thing could be read, the first of these that can be is read, and nothing else is tried for the same
piece of text.
-/

import Handoff.Template.Literal

namespace Handoff.Template

open Text (skipSpaces skipChar takeChar takeRun many before)

/-! ## Paths -/

/-- The marks between the keys of a path. -/
def isSeparator (c : Char) : Bool :=
  c == '.' || c == '/'

/-- Takes a separator. -/
def takeSeparator : List Char → Option (List Char)
  | [] => none
  | c :: cs => if isSeparator c then some cs else none

/-- Takes a key: a name, or anything between square brackets. -/
def takeKey (cs : List Char) : Option (String × List Char) :=
  match takeChar '[' cs with
  | some body => do
    let rest ← takeChar ']' (body.dropWhile (· != ']'))
    return (String.ofList (body.takeWhile (· != ']')), rest)
  | none => (takeRun isNameChar cs).map fun (name, rest) => (String.ofList name, rest)

/-- Takes a separator and the key behind it. -/
def takeFurtherKey (cs : List Char) : Option (String × List Char) := do
  takeKey (← takeSeparator cs)

/-- Drops a word in front of a path, together with the separator behind it. -/
def skipStep (word : List Char) (cs : List Char) : List Char :=
  ((word.isPrefixOf? cs).bind takeSeparator).getD cs

/-- Drops what leads to the place that a tag stands at, a point and a slash or `this`. -/
def skipHere (cs : List Char) : List Char :=
  match cs with
  | '.' :: '/' :: rest => rest
  | _ => skipStep ['t', 'h', 'i', 's'] cs

/-- Drops steps to a surrounding place. There is none, so they lead nowhere else. -/
def skipOutward : List Char → List Char
  | '.' :: '.' :: c :: cs => if isSeparator c then skipOutward cs else '.' :: '.' :: c :: cs
  | cs => cs

/-- Takes the keys of a path, separated by points or slashes. The key `this` changes nothing. -/
def takeKeys (cs : List Char) : Option (List String × List Char) := do
  let (first, rest) ← takeKey (skipOutward cs)
  let (others, rest) := many takeFurtherKey rest
  return ((first :: others).filter (· != "this"), rest)

/-- Takes a path. It may start at the root, which is where every path starts; otherwise an at sign in
front makes its first key a surrounding name. -/
def takePath (cs : List Char) : Option (Expr × List Char) := do
  let here := skipHere cs
  let start := skipStep ['@', 'r', 'o', 'o', 't'] here
  let (keys, rest) ← takeKeys (skipChar '@' start)
  match keys with
  | name :: _ =>
    if here.head? = some '@' ∧ start.length = here.length then return (.surrounding name, rest)
    else return (.path (String.ofList (before rest cs)) keys, rest)
  | [] => return (.path (String.ofList (before rest cs)) [], rest)

/-! ## Calls -/

/-- Whether a text starts with one of the words that are no arguments, unless another name follows. -/
def startsWithKeyword (cs : List Char) : Bool :=
  [['a', 's'], ['e', 'l', 's', 'e']].any fun word =>
    (word.isPrefixOf? cs).any fun rest => !(skipSpaces rest).head?.any isNameChar

/-- Takes an argument: a literal, a path or a call in parentheses. What has the shape of a literal but no
value is refused, and then nothing else can be read there either. -/
def takeArgument (takeNested : List Char → Option (Expr × List Char)) (cs : List Char) :
    Option (Expr × List Char) :=
  let cs := skipSpaces cs
  if startsWithKeyword cs then none
  else
    match takeShape cs.length cs with
    | some rest => (literalValue? (before rest cs)).map fun value => (.literal value, rest)
    | none => takePath cs <|> takeNested cs

/-- Takes the name of a helper and its arguments, at least one. -/
def takeCall (takeNested : List Char → Option (Expr × List Char)) (cs : List Char) :
    Option ((String × List Expr) × List Char) := do
  let (helper, rest) ← takeRun isNameChar cs
  let (arguments, rest) := many (takeArgument takeNested) rest
  if arguments.isEmpty then none else some ((String.ofList helper, arguments), rest)

/-- Takes a call in parentheses that are nested at most `depth` deep. A path in place of a call is the
name of a helper without arguments. -/
def takeNested : Nat → List Char → Option (Expr × List Char)
  | 0, _ => none
  | depth + 1, cs => do
    let inner := skipSpaces (← takeChar '(' cs)
    let ((helper, arguments), rest) ← takeCall (takeNested depth) inner <|>
      (takePath inner).map fun (_, rest) => ((String.ofList (before rest inner), []), rest)
    return (.call helper arguments, ← takeChar ')' (skipSpaces rest))

/-! ## Tags -/

/-- Takes what stands between the braces of a tag. -/
def takeContent (cs : List Char) : Option (Part × List Char) :=
  let nested := takeNested cs.length
  match takeCall nested cs with
  | some ((helper, arguments), rest) => some (.call helper arguments, rest)
  | none => (nested cs <|> takePath cs).map fun (expr, rest) => (.value expr, rest)

/-- Takes two equal characters. -/
def takeTwo (c : Char) (cs : List Char) : Option (List Char) := do
  takeChar c (← takeChar c cs)

/-- Takes the end of a tag. -/
def takeEnd (cs : List Char) : Option (List Char) :=
  takeTwo '\x7d' (skipSpaces cs)

/-- Whether the inside of a tag starts another branch of a choice: the word `else` and nothing more, or
`else`, a name and any number of arguments. No space has to stand behind `else`, so a name alone that
starts with this word starts a branch as well; one that more keys follow does not. -/
def startsBranch (cs : List Char) : Bool :=
  (['e', 'l', 's', 'e'].isPrefixOf? cs).any fun rest =>
    (takeEnd rest).isSome ||
      (takeRun isNameChar (skipSpaces rest)).any fun (_, rest) =>
        (takeEnd (many (takeArgument (takeNested cs.length)) rest).2).isSome

/-- Takes a tag, with a third pair of braces inside of the two or without. There are no choices, so a
tag that starts a branch of one is refused. -/
def takeTag (cs : List Char) : Option (Part × List Char) := do
  let inner := skipSpaces (← takeTwo '\x7b' cs)
  match takeChar '\x7b' inner with
  | some inner =>
    let (part, rest) ← takeContent (skipSpaces inner)
    let rest ← takeChar '\x7d' (skipSpaces rest)
    return (part, ← takeEnd rest)
  | none =>
    if startsBranch inner then none
    else
      let (part, rest) ← takeContent inner
      return (part, ← takeEnd rest)

/-! ## Text -/

/-- Whether a text starts with two braces. -/
def opensTag (cs : List Char) : Bool :=
  (takeTwo '\x7b' cs).isSome

/-- Splits off the text in front of the next tag. A backslash in front of two or four braces is dropped
and makes them plain. Of several backslashes in front of a tag one is dropped. -/
def splitText : List Char → List Char × List Char
  | [] => ([], [])
  | '\\' :: '\x7b' :: '\x7b' :: '\x7b' :: '\x7b' :: cs =>
    let (text, rest) := splitText cs
    ('\x7b' :: '\x7b' :: '\x7b' :: '\x7b' :: text, rest)
  | '\\' :: '\x7b' :: '\x7b' :: cs =>
    let (text, rest) := splitText cs
    ('\x7b' :: '\x7b' :: text, rest)
  | c :: cs =>
    let backslashes := cs.takeWhile (· == '\\')
    let behind := cs.dropWhile (· == '\\')
    if opensTag (c :: cs) then ([], c :: cs)
    else if c = '\\' ∧ opensTag behind then (backslashes, behind)
    else
      let (text, rest) := splitText cs
      (c :: text, rest)

/-! ## Templates -/

/-- Takes text up to the next tag, or a tag. -/
def takePart (cs : List Char) : Option (Part × List Char) :=
  match splitText cs with
  | ([], rest) => takeTag rest
  | (text, rest) => some (.text (String.ofList text), rest)

/-- Reads a text as a template. -/
def read? (text : String) : Option Template :=
  match many takePart text.toList with
  | (parts, []) => some ⟨parts⟩
  | (_, _ :: _) => none

end Handoff.Template
