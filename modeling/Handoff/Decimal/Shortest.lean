/-
# Handoff.Decimal.Shortest — the shortest decimal that reads back

A finite double stands for an interval of reals: those that round to it. This module finds the decimal
with the fewest digits in that interval and, among those, the one nearest to the double itself. All
arithmetic is exact and on natural numbers. An `Interval` carries its two ends and the double as
numerators over one denominator; moving to the grid of multiples of `10 ^ k` scales numerators or
denominator, so a grid point is again a numerator.

The search tries grids of one, two, … seventeen digits. On each it looks only at the two neighbours of
the double: if any grid point lies in the interval, one of these two does.
-/

namespace Handoff

/-- The decimal `digits · 10 ^ exponent`. -/
structure Decimal where
  digits : Nat
  exponent : Int
  deriving DecidableEq

namespace Decimal

/-! ## The interval of a double -/

/-- The reals that round to one double, as numerators over `unit`. The ends belong to the interval
exactly when `closed` holds. -/
structure Interval where
  low : Nat
  value : Nat
  high : Nat
  unit : Nat
  closed : Bool

/-- The interval of `mantissa · 2 ^ exponent`. Halfway points round to even mantissas. At a power of
two the doubles below are twice as dense, so the lower end is twice as near. -/
def Interval.ofDyadic (mantissa : Nat) (exponent : Int) (isPowerOfTwo : Bool) : Interval :=
  let numerator (n : Nat) : Nat := n * Nat.pow 2 (exponent - 2).toNat
  { low := numerator (4 * mantissa - if isPowerOfTwo then 1 else 2)
    value := numerator (4 * mantissa)
    high := numerator (4 * mantissa + 2)
    unit := Nat.pow 2 (2 - exponent).toNat
    closed := mantissa % 2 == 0 }

/-- The interval of the magnitude whose IEEE-754 bits are given; the sign bit is ignored. -/
def Interval.ofBits (bits : UInt64) : Interval :=
  let fraction : Nat := bits.toNat % Nat.pow 2 52
  let biased : Nat := bits.toNat / Nat.pow 2 52 % Nat.pow 2 11
  if biased = 0 then .ofDyadic fraction (-1074) false
  else .ofDyadic (Nat.pow 2 52 + fraction) (biased - 1075) (fraction == 0 && 1 < biased)

/-- The same interval with the multiples of `10 ^ k` as its whole numbers. -/
def Interval.onGrid (i : Interval) (k : Int) : Interval :=
  let up := Nat.pow 10 (-k).toNat
  { i with low := i.low * up, value := i.value * up, high := i.high * up,
           unit := i.unit * Nat.pow 10 k.toNat }

/-- Whether a whole number of the grid lies in the interval. -/
def Interval.holds (i : Interval) (point : Nat) : Bool :=
  if i.closed then i.low ≤ point * i.unit && point * i.unit ≤ i.high
  else i.low < point * i.unit && point * i.unit < i.high

/-! ## The search -/

/-- What to do when two points of a grid are equally near. -/
inductive Tie where
  | upward
  | toEven
  deriving DecidableEq

/-- Of the two neighbours of the value on the grid, the nearer one that lies in the interval. -/
def Interval.neighbour? (i : Interval) (tie : Tie) : Option Nat :=
  let below := i.value / i.unit
  let above := below + 1
  match i.holds below, i.holds above with
  | true, true =>
    let middle := (below + above) * i.unit
    if 2 * i.value < middle then some below
    else if middle < 2 * i.value then some above
    else if tie = .toEven && below % 2 == 0 then some below
    else some above
  | true, false => some below
  | false, true => some above
  | false, false => none

/-- The grid point `digits · 10 ^ k`. The upper neighbour of a value just below a power of ten has one
digit too many; it is the same number with a zero less. -/
def ofPoint (digits : Nat) (k : Int) : Decimal :=
  if digits % 10 = 0 then ⟨digits / 10, k + 1⟩ else ⟨digits, k⟩

/-- How many decimal digits a number has; zero has none. -/
def digitCount (n : Nat) : Nat :=
  if n = 0 then 0 else (Nat.toDigits 10 n).length

/-- The exponent of the leading decimal digit of the value. -/
def Interval.magnitude (i : Interval) : Int :=
  if i.unit ≤ i.value then digitCount (i.value / i.unit) - 1
  else -(digitCount ((i.unit + i.value - 1) / i.value - 1))

/-- The shortest decimal of the interval, the nearest to the value among the shortest. Seventeen digits
tell any two doubles apart, so the search always ends with a hit. -/
def Interval.shortest (i : Interval) (tie : Tie) : Decimal :=
  let found := (List.range 17).findSome? fun (more : Nat) =>
    let k := i.magnitude - more
    ((i.onGrid k).neighbour? tie).map fun digits => ofPoint digits k
  found.getD ⟨0, 0⟩

/-! ## Positional text -/

/-- A text of `n` zeros. -/
def zeros (n : Nat) : String :=
  String.ofList (List.replicate n '0')

/-- The decimal written out, without exponent: zeros fill the places that its digits leave open, and a
point stands only before a fraction. -/
def positional (d : Decimal) : String :=
  let text := Nat.toDigits 10 d.digits
  let places := (-d.exponent).toNat
  if 0 ≤ d.exponent then String.ofList text ++ zeros d.exponent.toNat
  else if places < text.length then
    String.ofList (text.take (text.length - places)) ++ "."
      ++ String.ofList (text.drop (text.length - places))
  else "0." ++ zeros (places - text.length) ++ String.ofList text

/-- Whether the sign bit is set. -/
def isNegative (x : Float) : Bool :=
  Nat.pow 2 63 ≤ x.toBits.toNat

/-- The text of a double: the shortest decimal that reads back, always positional, `NaN`, `inf` and
`-inf` for the rest. Negative zero keeps its sign. Of two nearest decimals the larger is written. -/
def text (x : Float) : String :=
  if x.isNaN then "NaN"
  else
    let magnitude :=
      if x.isInf then "inf"
      else if x == 0 then "0"
      else ((Interval.ofBits x.toBits).shortest .upward).positional
    if isNegative x then "-" ++ magnitude else magnitude

end Decimal

end Handoff
