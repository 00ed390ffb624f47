/-
# Handoff.Style.Record — style records

A style record is a class name with its declarations in order. A record made from no declarations is
the empty record: it has no class name either, and nothing is written for it.
-/

namespace Handoff

/-- One declaration: a property and its value. -/
structure StyleProperty where
  name : String
  value : String
  deriving DecidableEq, Inhabited

structure StyleRecord where
  className : String := ""
  properties : List StyleProperty := []
  deriving DecidableEq, Inhabited

namespace StyleRecord

/-- The record without class name and declarations. -/
def empty : StyleRecord :=
  {}

/-- The record of a class; without declarations it is the empty one. -/
def ofProperties (className : String) (properties : List StyleProperty) : StyleRecord :=
  if properties.isEmpty then empty else { className, properties }

def isEmpty (r : StyleRecord) : Bool :=
  r.properties.isEmpty

/-- The value of the first declaration of a property. -/
def get? (r : StyleRecord) (name : String) : Option String :=
  (r.properties.find? fun p => p.name == name).map (·.value)

def has (r : StyleRecord) (name : String) : Bool :=
  (r.get? name).isSome

end StyleRecord

/-! ## Numbering -/

/-- The source of the numbers in the class names of texts and images. One counter runs through one
traversal, so the numbers follow the order of visits. -/
structure Counter where
  next : UInt32 := 1
  deriving DecidableEq, Inhabited

/-- The next number, and the counter behind it. -/
def Counter.take (c : Counter) : Nat × Counter :=
  (c.next.toNat, ⟨c.next + 1⟩)

/-- The number that `take` would give. -/
def Counter.peek (c : Counter) : Nat :=
  c.next.toNat

end Handoff
