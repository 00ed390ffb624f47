/-
# Handoff.Json.Value — JSON values

A value keeps what its text says: members stay in the order in which they were written, and a key
written twice is there twice. What a repeated key means is decided by whoever reads the value. The
canonical form is one such decision: the last member with a key wins, at every depth, and the keys are
sorted, so that values which differ only in the order of their keys have one canonical form.
-/

namespace Handoff

/-! ## Values -/

/-- A JSON number: a whole number if it was written as one and fits 64 bits, else a double. -/
inductive Json.Number where
  | whole (value : Int)
  | real (value : Float)
  deriving BEq, Inhabited

/-- The number as a double. -/
def Json.Number.toFloat : Json.Number → Float
  | .whole value => Float.ofInt value
  | .real value => value

inductive Json where
  | null
  | bool (value : Bool)
  | number (value : Json.Number)
  | text (value : String)
  | array (items : List Json)
  | object (members : List (String × Json))
  deriving Inhabited

namespace Json

/-- The whole number as a JSON value. -/
def ofNat (n : Nat) : Json :=
  .number (.whole n)

/-- The double as a JSON value. JSON has no text for NaN and the infinities; they become null. -/
def ofFloat (x : Float) : Json :=
  if x.isFinite then .number (.real x) else .null

/-- Null for what is absent. -/
def ofOption (f : α → Json) : Option α → Json
  | none => .null
  | some a => f a

/-! ## Equality -/

mutual

/-- Whether two values are written alike, but for the sign of a zero. -/
def beq : Json → Json → Bool
  | .null, .null => true
  | .bool a, .bool b => a == b
  | .number a, .number b => a == b
  | .text a, .text b => a == b
  | .array as, .array bs => beqItems as bs
  | .object as, .object bs => beqMembers as bs
  | _, _ => false

def beqItems : List Json → List Json → Bool
  | [], [] => true
  | a :: as, b :: bs => a.beq b && beqItems as bs
  | _, _ => false

def beqMembers : List (String × Json) → List (String × Json) → Bool
  | [], [] => true
  | (j, a) :: as, (k, b) :: bs => j == k && a.beq b && beqMembers as bs
  | _, _ => false

end

instance : BEq Json where
  beq := beq

/-! ## Nesting -/

mutual

/-- How deep containers are nested in a value; a scalar has none. -/
def depth : Json → Nat
  | .array items => 1 + depthOfItems items
  | .object members => 1 + depthOfMembers members
  | _ => 0

def depthOfItems : List Json → Nat
  | [] => 0
  | item :: items => max item.depth (depthOfItems items)

def depthOfMembers : List (String × Json) → Nat
  | [] => 0
  | (_, value) :: members => max value.depth (depthOfMembers members)

end

/-! ## The canonical form -/

/-- Puts a member into a list sorted by key, in place of one with the same key. -/
def insertMember (key : String) (value : β) : List (String × β) → List (String × β)
  | [] => [(key, value)]
  | m :: ms =>
    if key < m.1 then (key, value) :: m :: ms
    else if key = m.1 then (key, value) :: ms
    else m :: insertMember key value ms

/-- The members sorted by key; of members with one key, the last. -/
def sortMembers (members : List (String × β)) : List (String × β) :=
  members.foldl (fun sorted m => insertMember m.1 m.2 sorted) []

mutual

/-- The value with sorted keys and without repeated ones, at every depth. -/
def canonical : Json → Json
  | .array items => .array (canonicalItems items)
  | .object members => .object (sortMembers (canonicalMembers members))
  | other => other

def canonicalItems : List Json → List Json
  | [] => []
  | item :: items => item.canonical :: canonicalItems items

def canonicalMembers : List (String × Json) → List (String × Json)
  | [] => []
  | (key, value) :: members => (key, value.canonical) :: canonicalMembers members

end

end Json

end Handoff
