/-
# Handoff.Json.Printer — JSON values as text

Two layouts share one way to write scalars. The compact layout has no blanks at all; the indented one
gives every item and member a line of its own, two spaces deeper than its container, and writes empty
containers as `[]` and a pair of braces. Text escapes the quote, the backslash and the control
characters below U+0020, and nothing else.
-/

import Handoff.Json.Value
import Handoff.Decimal.Shortest

namespace Handoff.Json

/-! ## Scalars -/

/-- The orders of magnitude at which a double is written without exponent: the point may stand up to
sixteen places after the first digit and up to four zeros may follow it. -/
def isPositional (leading : Int) : Bool :=
  -5 < leading && leading ≤ 16

/-- An exponent with its sign. -/
def exponentText (exponent : Int) : String :=
  "e" ++ (if 0 ≤ exponent then "+" else "") ++ toString exponent

/-- A decimal in the form that JSON numbers take: positional with at least one place, or with a signed
exponent. -/
def decimalText (d : Decimal) : String :=
  let digits := Nat.toDigits 10 d.digits
  let leading : Int := digits.length + d.exponent
  if isPositional leading then
    if 0 ≤ d.exponent then d.positional ++ ".0" else d.positional
  else
    let fraction := String.ofList (digits.drop 1)
    let mantissa := String.ofList (digits.take 1) ++ if fraction.isEmpty then "" else "." ++ fraction
    mantissa ++ exponentText (leading - 1)

/-- A finite double in the form that JSON numbers take. -/
def realText (x : Float) : String :=
  let magnitude :=
    if x == 0 then "0.0" else decimalText ((Decimal.Interval.ofBits x.toBits).shortest .toEven)
  if Decimal.isNegative x then "-" ++ magnitude else magnitude

def Number.text : Number → String
  | .whole value => toString value
  | .real value => realText value

/-- A lower-case hexadecimal digit. -/
def hexChar (n : Nat) : Char :=
  (Nat.toDigits 16 n).headD '0'

/-- A character as it is written between quotes. -/
def escapeChar (c : Char) : List Char :=
  if c = '"' then ['\\', '"']
  else if c = '\\' then ['\\', '\\']
  else if c = '\x08' then ['\\', 'b']
  else if c = '\t' then ['\\', 't']
  else if c = '\n' then ['\\', 'n']
  else if c = '\x0C' then ['\\', 'f']
  else if c = '\r' then ['\\', 'r']
  else if c.toNat < 0x20 then
    ['\\', 'u', '0', '0', hexChar (c.toNat / 16), hexChar (c.toNat % 16)]
  else [c]

/-- A text between quotes. -/
def quote (s : String) : String :=
  String.ofList ('"' :: s.toList.flatMap escapeChar ++ ['"'])

/-! ## Compact layout -/

mutual

/-- The value without any blanks. -/
def compact : Json → String
  | .null => "null"
  | .bool value => if value then "true" else "false"
  | .number value => value.text
  | .text value => quote value
  | .array items => "[" ++ ",".intercalate (compactItems items) ++ "]"
  | .object members => "\x7b" ++ ",".intercalate (compactMembers members) ++ "\x7d"

def compactItems : List Json → List String
  | [] => []
  | item :: items => item.compact :: compactItems items

def compactMembers : List (String × Json) → List String
  | [] => []
  | (key, value) :: members => (quote key ++ ":" ++ value.compact) :: compactMembers members

end

/-! ## Indented layout -/

/-- The start of a line that stands `depth` levels deep. -/
def margin (depth : Nat) : String :=
  String.ofList (List.replicate (2 * depth) ' ')

/-- A container's entries between its marks, each on its own line. -/
def block (opening closing : String) (depth : Nat) (entries : List String) : String :=
  if entries.isEmpty then opening ++ closing
  else
    opening ++ "\n" ++ ",\n".intercalate (entries.map (margin (depth + 1) ++ ·)) ++ "\n"
      ++ margin depth ++ closing

mutual

/-- The value on lines of its own, at the given depth. -/
def indented (depth : Nat) : Json → String
  | .array items => block "[" "]" depth (indentedItems (depth + 1) items)
  | .object members => block "\x7b" "\x7d" depth (indentedMembers (depth + 1) members)
  | .null => "null"
  | .bool value => if value then "true" else "false"
  | .number value => value.text
  | .text value => quote value

def indentedItems (depth : Nat) : List Json → List String
  | [] => []
  | item :: items => item.indented depth :: indentedItems depth items

def indentedMembers (depth : Nat) : List (String × Json) → List String
  | [] => []
  | (key, value) :: members =>
    (quote key ++ ": " ++ value.indented depth) :: indentedMembers depth members

end

end Handoff.Json
