/-
# Handoff.Json.Piece — the pieces of a JSON text

A text is first cut into pieces: marks of punctuation, quoted texts and bare runs. Cutting reads one
character at a time and looks at nothing but quotes, backslashes, blanks and marks. Each piece is then
read on its own as a `Token`: a quoted body by undoing its escapes, a bare run as one of the three words
or as a number. Nothing here depends on how tokens may follow each other.
-/

import Handoff.Json.Value
import Handoff.Decimal.Scaling
import Handoff.Text.Front

namespace Handoff.Json

/-- Why a text is not a JSON value. -/
inductive ReadError where
  | unclosedText
  | controlCharacter
  | badEscape
  | badWord
  | numberTooLarge
  | misplacedToken
  | tooDeep
  | unfinished
  deriving DecidableEq, Inhabited

/-! ## Cutting -/

/-- A piece of text: a mark, the body of a quoted text as it is written, or a run of anything else. -/
inductive Piece where
  | mark (c : Char)
  | quoted (body : List Char)
  | bare (run : List Char)

/-- Where the cut stands: between quotes or not, with the characters read so far, last one first. -/
inductive CutState where
  | outside (run : List Char)
  | inside (body : List Char)
  | afterBackslash (body : List Char)

/-- The punctuation of JSON. -/
def isMark (c : Char) : Bool :=
  c == '[' || c == ']' || c == '\x7b' || c == '\x7d' || c == ',' || c == ':'

/-- Adds the bare run read so far, if there is one. -/
def closeRun (run : List Char) (pieces : List Piece) : List Piece :=
  if run.isEmpty then pieces else .bare run.reverse :: pieces

/-- Cuts a text into pieces; `pieces` holds those found so far, last one first. -/
def cutFrom (pieces : List Piece) : CutState → List Char → Except ReadError (List Piece)
  | .outside run, [] => .ok (closeRun run pieces).reverse
  | .inside _, [] => .error .unclosedText
  | .afterBackslash _, [] => .error .unclosedText
  | .outside run, c :: cs =>
    if c = '"' then cutFrom (closeRun run pieces) (.inside []) cs
    else if isMark c then cutFrom (.mark c :: closeRun run pieces) (.outside []) cs
    else if Text.isSpace c then cutFrom (closeRun run pieces) (.outside []) cs
    else cutFrom pieces (.outside (c :: run)) cs
  | .inside body, c :: cs =>
    if c = '"' then cutFrom (.quoted body.reverse :: pieces) (.outside []) cs
    else if c.toNat < 0x20 then .error .controlCharacter
    else if c = '\\' then cutFrom pieces (.afterBackslash (c :: body)) cs
    else cutFrom pieces (.inside (c :: body)) cs
  | .afterBackslash body, c :: cs =>
    if c.toNat < 0x20 then .error .controlCharacter
    else cutFrom pieces (.inside (c :: body)) cs

/-- The pieces of a text. -/
def cut (cs : List Char) : Except ReadError (List Piece) :=
  cutFrom [] (.outside []) cs

/-! ## Escapes -/

/-- The value of a hexadecimal digit. -/
def hexDigit? (c : Char) : Option Nat :=
  if '0' ≤ c ∧ c ≤ '9' then some (c.toNat - '0'.toNat)
  else if 'a' ≤ c ∧ c ≤ 'f' then some (c.toNat - 'a'.toNat + 10)
  else if 'A' ≤ c ∧ c ≤ 'F' then some (c.toNat - 'A'.toNat + 10)
  else none

/-- The value of four hexadecimal digits. -/
def hexUnit? (a b c d : Char) : Option Nat :=
  [a, b, c, d].foldl (fun n digit => do pure (16 * (← n) + (← hexDigit? digit))) (some 0)

/-- The character that a short escape stands for. -/
def shortEscape? (c : Char) : Option Char :=
  [('"', '"'), ('\\', '\\'), ('/', '/'), ('b', '\x08'), ('f', '\x0C'), ('n', '\n'), ('r', '\r'),
    ('t', '\t')].lookup c

/-- Whether a 16-bit unit is the first half of a pair. -/
def isHighHalf (unit : Nat) : Bool :=
  0xD800 ≤ unit && unit < 0xDC00

/-- Whether a 16-bit unit is the second half of a pair. -/
def isLowHalf (unit : Nat) : Bool :=
  0xDC00 ≤ unit && unit < 0xE000

/-- The character of two halves. -/
def joinHalves (high low : Nat) : Char :=
  Char.ofNat (0x10000 + (high - 0xD800) * 0x400 + (low - 0xDC00))

/-- Undoes the escapes of a quoted body. A half of a pair that stands alone is refused. -/
def unescape : List Char → Except ReadError (List Char)
  | [] => .ok []
  | '\\' :: 'u' :: a :: b :: c :: d :: cs =>
    match hexUnit? a b c d with
    | none => .error .badEscape
    | some unit =>
      if isHighHalf unit then
        match cs with
        | '\\' :: 'u' :: e :: f :: g :: h :: rest =>
          match hexUnit? e f g h with
          | none => .error .badEscape
          | some low =>
            if isLowHalf low then (unescape rest).map (joinHalves unit low :: ·)
            else .error .badEscape
        | _ => .error .badEscape
      else if isLowHalf unit then .error .badEscape
      else (unescape cs).map (Char.ofNat unit :: ·)
  | '\\' :: c :: cs =>
    match shortEscape? c with
    | some plain => (unescape cs).map (plain :: ·)
    | none => .error .badEscape
  | c :: cs =>
    if c = '\\' then .error .badEscape else (unescape cs).map (c :: ·)

/-! ## Words and numbers -/

/-- Whether a run of digits is empty or starts with a zero that it does not need. -/
def hasLooseZero : List Char → Bool
  | [] => true
  | '0' :: _ :: _ => true
  | _ => false

/-- Whether a literal is a JSON number: no plus sign in front, no needless zero, and digits wherever
there is a point or an exponent. -/
def isNumeral (l : Decimal.Literal) : Bool :=
  l.sign != some '+' && !hasLooseZero l.whole && l.fraction.all (!·.isEmpty)
    && l.exponent.all fun e => !e.2.isEmpty

/-- The number that a JSON literal stands for. Without point and exponent it is a whole number if it
fits 64 bits, with the sign for the negative ones; minus zero is a double, as is every other literal.
Doubles are read in two roundings. -/
def Number.ofLiteral (l : Decimal.Literal) : Except ReadError Number :=
  let n := Decimal.digitsValue l.whole
  if l.isWhole && !l.isNegative && n < UInt64.size then .ok (.whole n)
  else if l.isWhole && l.isNegative && n ≠ 0 && n ≤ Nat.pow 2 63 then .ok (.whole (-n))
  else if l.scaledValue.isFinite then .ok (.real l.scaledValue)
  else .error .numberTooLarge

/-- Reads a bare run as a scalar. -/
def readBare (run : List Char) : Except ReadError Json :=
  if run = ['n', 'u', 'l', 'l'] then .ok .null
  else if run = ['t', 'r', 'u', 'e'] then .ok (.bool true)
  else if run = ['f', 'a', 'l', 's', 'e'] then .ok (.bool false)
  else
    match Decimal.Literal.scan run with
    | some l => if isNumeral l then (Number.ofLiteral l).map .number else .error .badWord
    | none => .error .badWord

/-! ## Tokens -/

/-- A token: a mark, a quoted text or another scalar. -/
inductive Token where
  | mark (c : Char)
  | text (value : String)
  | scalar (value : Json)

def Piece.token : Piece → Except ReadError Token
  | .mark c => .ok (.mark c)
  | .quoted body => (unescape body).map fun cs => .text (String.ofList cs)
  | .bare run => (readBare run).map .scalar

/-- The tokens of a text. -/
def tokens (cs : List Char) : Except ReadError (List Token) := do
  (← cut cs).mapM Piece.token

end Handoff.Json
