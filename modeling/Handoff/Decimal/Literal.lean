/-
# Handoff.Decimal.Literal — reading decimal literals

A literal is cut into sign, whole part, fraction and exponent by one scanner, `Literal.scan`, which
accepts every arrangement that some format allows. Each format then says which literals it accepts.
`Literal.value` is the double nearest to the literal. A literal may carry an exponent of any size; its
order of magnitude is looked at first, so that no power of ten is computed for a value that is zero or
infinite anyway.
-/

import Handoff.Decimal.Shortest

namespace Handoff.Decimal

/-- A decimal literal, taken apart. Absent parts are `none`; present ones may be empty. -/
structure Literal where
  sign : Option Char
  whole : List Char
  fraction : Option (List Char)
  exponent : Option (Option Char × List Char)

/-! ## Scanning -/

/-- Splits a leading sign off. -/
def takeSign : List Char → Option Char × List Char
  | c :: cs => if c = '+' ∨ c = '-' then (some c, cs) else (none, c :: cs)
  | [] => (none, [])

/-- Splits the leading run of ASCII digits off. -/
def takeDigits (cs : List Char) : List Char × List Char :=
  (cs.takeWhile Char.isDigit, cs.dropWhile Char.isDigit)

/-- Splits a point and the digits after it off. -/
def takeFraction : List Char → Option (List Char) × List Char
  | '.' :: cs => let (digits, rest) := takeDigits cs; (some digits, rest)
  | cs => (none, cs)

/-- Splits an exponent off: `e` or `E`, an optional sign and digits. -/
def takeExponent : List Char → Option (Option Char × List Char) × List Char
  | c :: cs =>
    if c = 'e' ∨ c = 'E' then
      let (sign, rest) := takeSign cs
      let (digits, rest) := takeDigits rest
      (some (sign, digits), rest)
    else (none, c :: cs)
  | [] => (none, [])

/-- Takes a whole text apart as a literal; `none` if something is left over. -/
def Literal.scan (cs : List Char) : Option Literal :=
  let (sign, rest) := takeSign cs
  let (whole, rest) := takeDigits rest
  let (fraction, rest) := takeFraction rest
  let (exponent, rest) := takeExponent rest
  if rest.isEmpty then some ⟨sign, whole, fraction, exponent⟩ else none

/-! ## Value -/

/-- The number written by a run of digits. -/
def digitsValue (cs : List Char) : Nat :=
  cs.foldl (fun n c => 10 * n + (c.toNat - '0'.toNat)) 0

/-- Whether the literal starts with a minus sign. -/
def Literal.isNegative (l : Literal) : Bool :=
  l.sign == some '-'

/-- Whether the literal has neither point nor exponent. -/
def Literal.isWhole (l : Literal) : Bool :=
  l.fraction.isNone && l.exponent.isNone

/-- The power of ten that the exponent part stands for. -/
def Literal.power (l : Literal) : Int :=
  match l.exponent with
  | some (some '-', digits) => -(digitsValue digits)
  | some (_, digits) => digitsValue digits
  | none => 0

/-- The magnitude of the literal: all its digits, with the exponent that the point leaves. -/
def Literal.magnitude (l : Literal) : Decimal :=
  let fraction := l.fraction.getD []
  ⟨digitsValue (l.whole ++ fraction), l.power - fraction.length⟩

/-- The double nearest to a decimal; infinite beyond the range of doubles. -/
def toFloat (d : Decimal) : Float :=
  let top := digitCount d.digits + d.exponent
  if d.digits = 0 ∨ top < -330 then 0
  else if 310 < top then 1.0 / 0.0
  else Float.ofScientific d.digits (d.exponent < 0) d.exponent.natAbs

/-- The double nearest to the literal. A negative literal of value zero is negative zero. -/
def Literal.value (l : Literal) : Float :=
  if l.isNegative then -l.magnitude.toFloat else l.magnitude.toFloat

/-! ## The literals of plain numbers -/

/-- Whether the literal is a plain number: a digit on either side of the point, and digits in the
exponent if there is one. -/
def Literal.isPlain (l : Literal) : Bool :=
  !(l.whole ++ l.fraction.getD []).isEmpty
    && l.exponent.all fun e => !e.2.isEmpty

/-- The words, without sign and in small letters, that are read as infinity or as no number. -/
def specialValue (word : String) : Option Float :=
  if word = "inf" ∨ word = "infinity" then some (1.0 / 0.0)
  else if word = "nan" then some (0.0 / 0.0)
  else none

/-- Reads a whole text as a double: a plain number, or `inf`, `infinity` or `nan` in any case, each with
an optional sign. -/
def read? (s : String) : Option Float :=
  match Literal.scan s.toList with
  | some l => if l.isPlain then some l.value else none
  | none =>
    let (sign, rest) := takeSign s.toList
    (specialValue (String.ofList (rest.map Char.toLower))).map fun x =>
      if sign = some '-' then -x else x

end Handoff.Decimal
