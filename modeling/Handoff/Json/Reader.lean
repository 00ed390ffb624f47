/-
# Handoff.Json.Reader — reading JSON texts

The reader runs over the tokens of a text with the open arrays and objects on a stack. One token makes
one step, and a step either moves on or gives the reason why the text is refused; so the reader is a
fold, and it ends because the tokens do. The stack may hold at most `limit` containers: a text may be
nested that deep and no deeper.
-/

import Handoff.Json.Piece

namespace Handoff.Json

/-! ## The state -/

/-- An open container with what it holds so far, last one first. An object also holds the key that its
next value belongs to. -/
inductive Frame where
  | array (items : List Json)
  | object (members : List (String × Json)) (key : String)

/-- What may come next: a value; the first item of an array or its end; a comma or the end after an
item; the first key of an object or its end; another key; the colon after a key; a comma or the end
after a member; or nothing, because the value is complete. -/
inductive Expect where
  | value
  | firstItem
  | afterItem
  | firstKey
  | nextKey
  | colon
  | afterMember
  | nothing (result : Json)

structure State where
  frames : List Frame
  expect : Expect

/-! ## Steps -/

/-- Hands a complete value to the innermost open container. -/
def deliver (value : Json) : List Frame → State
  | [] => ⟨[], .nothing value⟩
  | .array items :: frames => ⟨.array (value :: items) :: frames, .afterItem⟩
  | .object members key :: frames => ⟨.object ((key, value) :: members) key :: frames, .afterMember⟩

/-- Opens a container, if the nesting allows one more. -/
def openFrame (limit : Nat) (frame : Frame) (expect : Expect) (frames : List Frame) :
    Except ReadError State :=
  if frames.length < limit then .ok ⟨frame :: frames, expect⟩ else .error .tooDeep

/-- Reads a token where a value is due. -/
def beginValue (limit : Nat) (frames : List Frame) : Token → Except ReadError State
  | .scalar value => .ok (deliver value frames)
  | .text value => .ok (deliver (.text value) frames)
  | .mark c =>
    if c = '[' then openFrame limit (.array []) .firstItem frames
    else if c = '\x7b' then openFrame limit (.object [] "") .firstKey frames
    else .error .misplacedToken

/-- Closes the innermost container with the mark that belongs to it. -/
def closeFrame (c : Char) : List Frame → Except ReadError State
  | .array items :: frames =>
    if c = ']' then .ok (deliver (.array items.reverse) frames) else .error .misplacedToken
  | .object members _ :: frames =>
    if c = '\x7d' then .ok (deliver (.object members.reverse) frames) else .error .misplacedToken
  | [] => .error .misplacedToken

/-- Sets the key that the next value of the innermost object belongs to. -/
def setKey (key : String) : List Frame → Except ReadError State
  | .object members _ :: frames => .ok ⟨.object members key :: frames, .colon⟩
  | _ => .error .misplacedToken

/-- One step of the reader. -/
def step (limit : Nat) (s : State) (token : Token) : Except ReadError State :=
  match s.expect, token with
  | .value, token => beginValue limit s.frames token
  | .firstItem, .mark ']' => closeFrame ']' s.frames
  | .firstItem, token => beginValue limit s.frames token
  | .afterItem, .mark ',' => .ok ⟨s.frames, .value⟩
  | .afterItem, .mark c => closeFrame c s.frames
  | .firstKey, .mark c => closeFrame c s.frames
  | .firstKey, .text key => setKey key s.frames
  | .nextKey, .text key => setKey key s.frames
  | .colon, .mark ':' => .ok ⟨s.frames, .value⟩
  | .afterMember, .mark ',' => .ok ⟨s.frames, .nextKey⟩
  | .afterMember, .mark c => closeFrame c s.frames
  | _, _ => .error .misplacedToken

/-! ## Reading -/

/-- The value of a list of tokens. -/
def ofTokens (limit : Nat) (tokens : List Token) : Except ReadError Json := do
  match (← tokens.foldlM (step limit) ⟨[], .value⟩).expect with
  | .nothing result => .ok result
  | _ => .error .unfinished

/-- The nesting that a document may have. -/
def documentDepth : Nat := 127

/-- Reads a text whose containers are nested at most `limit` deep. -/
def readWithin (limit : Nat) (text : String) : Except ReadError Json := do
  ofTokens limit (← tokens text.toList)

/-- Reads a document. -/
def read (text : String) : Except ReadError Json :=
  readWithin documentDepth text

end Handoff.Json
