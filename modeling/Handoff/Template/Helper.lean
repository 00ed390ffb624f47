/-
# Handoff.Template.Helper — the helpers of templates

A helper makes a value of the values of its arguments. It looks at as many of them as it needs, from the
first one on, and refuses them if there are fewer or if they are not of the kind that it works on.

Two helpers shape names: `capitalize` and `sanitize`. The others belong to every template: tests and
connectives, length, looking up, and those that have to do with blocks and messages. A tag has no block,
and a message is not part of the text, so the last give empty text.
-/

import Handoff.Json.Value
import Handoff.Text.Identifier
import Handoff.Text.Uppercase

namespace Handoff.Template

/-- The value that a helper makes of the values of its arguments, if it takes them. -/
abbrev Helper := List Json → Option Json

/-! ## Kinds of arguments -/

/-- A helper that works on a text. -/
def Helper.ofText (f : String → String) : Helper
  | .text s :: _ => some (.text (f s))
  | _ => none

/-- A helper that works on any value. -/
def Helper.ofOne (f : Json → Json) : Helper
  | x :: _ => some (f x)
  | [] => none

/-- A helper that works on any two values. -/
def Helper.ofTwo (f : Json → Json → Json) : Helper
  | x :: y :: _ => some (f x y)
  | _ => none

/-- The whole number that a value is, if it fits 64 bits with a sign. -/
def signedWhole? : Json → Option Int
  | .number (.whole n) => if n ≤ Int64.maxValue.toInt then some n else none
  | _ => none

/-- A helper that compares two whole numbers. -/
def Helper.ofWholes (test : Int → Int → Bool) : Helper
  | x :: y :: _ => do return .bool (test (← signedWhole? x) (← signedWhole? y))
  | _ => none

/-- A helper that gives empty text for any value. -/
def Helper.ofBlock : Helper :=
  .ofOne fun _ => .text ""

/-- A helper that gives empty text whatever it is given. -/
def Helper.silent : Helper :=
  fun _ => some (.text "")

/-! ## Tests and looking up -/

/-- Whether a double is neither zero nor too small for full precision, nor infinite. -/
def isNormal (x : Float) : Bool :=
  let biased := x.toBits.toNat / Nat.pow 2 52 % Nat.pow 2 11
  biased != 0 && biased != 2047

/-- Whether a value counts as true: null and all that is empty do not, and of numbers only those do
that are normal as doubles. -/
def isTruthy : Json → Bool
  | .null => false
  | .bool value => value
  | .number n => isNormal n.toFloat
  | .text value => !value.isEmpty
  | .array items => !items.isEmpty
  | .object members => !members.isEmpty

/-- The number of items, of members or of UTF-8 bytes; zero for what has none of them. -/
def size : Json → Nat
  | .text value => value.utf8ByteSize
  | .array items => items.length
  | .object members => members.length
  | _ => 0

/-- The item or the member that another value names; null if there is none. -/
def item : Json → Json → Json
  | .array items, .number (.whole n) => if n < 0 then .null else items[n.toNat]?.getD .null
  | .object members, .text key => (members.lookup key).getD .null
  | _, _ => .null

/-! ## The helpers -/

/-- The helpers by name. -/
def helpers : List (String × Helper) :=
  [("capitalize", .ofText Text.capitalize), ("sanitize", .ofText Text.sanitize),
   ("eq", .ofTwo fun x y => .bool (x == y)), ("ne", .ofTwo fun x y => .bool (x != y)),
   ("gt", .ofWholes fun m n => m > n), ("gte", .ofWholes fun m n => m ≥ n),
   ("lt", .ofWholes fun m n => m < n), ("lte", .ofWholes fun m n => m ≤ n),
   ("and", .ofTwo fun x y => .bool (isTruthy x && isTruthy y)),
   ("or", .ofTwo fun x y => .bool (isTruthy x || isTruthy y)),
   ("not", .ofOne fun x => .bool !isTruthy x), ("len", .ofOne fun x => .ofNat (size x)),
   ("lookup", .ofTwo item),
   ("if", .ofBlock), ("unless", .ofBlock), ("each", .ofBlock), ("with", .ofBlock),
   ("raw", .silent), ("log", .silent)]

/-- Whether a helper has this name. -/
def isHelper (name : String) : Bool :=
  (helpers.lookup name).isSome

end Handoff.Template
