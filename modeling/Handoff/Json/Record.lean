/-
# Handoff.Json.Record — reading values into types

The readers of this module say how the parts of a value become the fields of a type. A record may be
written in two ways: as an object, whose members are looked up by name, or as an array, whose items
stand for the fields in their order. Members that no field asks for are never looked at. A field that
is asked for and given twice is refused.

A choice between alternatives is written as a name; a choice whose alternatives have fields is a record
with the name in one of its members, or first in the array.
-/

import Handoff.Json.Value

namespace Handoff.Json

/-! ## Failure -/

/-- Why a value does not fit a type. -/
inductive DecodeError where
  | wrongShape (expected : String)
  | missingField (name : String)
  | repeatedField (name : String)
  | unknownName (name : String)
  deriving DecidableEq, Inhabited

abbrev Decoded (α : Type) := Except DecodeError α

/-! ## Plain values -/

def asText : Json → Decoded String
  | .text value => .ok value
  | _ => .error (.wrongShape "a text")

def asBool : Json → Decoded Bool
  | .bool value => .ok value
  | _ => .error (.wrongShape "true or false")

def asFloat : Json → Decoded Float
  | .number value => .ok value.toFloat
  | _ => .error (.wrongShape "a number")

def asNat : Json → Decoded Nat
  | .number (.whole (.ofNat n)) => .ok n
  | _ => .error (.wrongShape "a natural number")

/-- Reads null as absent. -/
def asOption (decode : Json → Decoded α) : Json → Decoded (Option α)
  | .null => .ok none
  | value => (decode value).map some

/-- Reads every item of an array. -/
def asList (decode : Json → Decoded α) : Json → Decoded (List α)
  | .array items => items.mapM decode
  | _ => .error (.wrongShape "an array")

/-! ## Names -/

/-- Looks a name up in the list of names of a type. -/
def lookupName (names : List (String × α)) (name : String) : Decoded α :=
  match names.lookup name with
  | some a => .ok a
  | none => .error (.unknownName name)

/-- Reads a choice without fields: its name, or an object with the name as its only key and null as the
value. -/
def asName (names : List (String × α)) : Json → Decoded α
  | .text name => lookupName names name
  | .object [(name, .null)] => lookupName names name
  | _ => .error (.wrongShape "a name")

/-- The first name of a choice in the list of names of its type. -/
def nameOf [DecidableEq α] (names : List (String × α)) (a : α) : String :=
  match names.find? fun entry => entry.2 = a with
  | some entry => entry.1
  | none => ""

/-- A choice without fields as a value. -/
def ofName [DecidableEq α] (names : List (String × α)) (a : α) : Json :=
  .text (nameOf names a)

/-! ## Records -/

/-- The value of the member with this key, if there is one; two are refused. -/
def member? (members : List (String × Json)) (key : String) : Decoded (Option Json) :=
  match members.filter fun m => m.1 == key with
  | [] => .ok none
  | [m] => .ok (some m.2)
  | _ => .error (.repeatedField key)

/-- The parts of a record: by name, or in the order of the fields. -/
inductive Record where
  | named (members : List (String × Json))
  | listed (items : List Json)

/-- The value given for a field, by its name or its place. -/
def Record.field? (r : Record) (place : Nat) (name : String) : Decoded (Option Json) :=
  match r with
  | .named members => member? members name
  | .listed items => .ok items[place]?

/-- Reads a field that has to be there. -/
def Record.required (r : Record) (place : Nat) (name : String) (decode : Json → Decoded α) :
    Decoded α := do
  match ← r.field? place name with
  | some value => decode value
  | none => .error (.missingField name)

/-- Reads a field that has a value of its own when it is absent. -/
def Record.optional (r : Record) (place : Nat) (name : String) (absent : α)
    (decode : Json → Decoded α) : Decoded α := do
  match ← r.field? place name with
  | some value => decode value
  | none => .ok absent

/-- Refuses a list with more items than there are fields. -/
def Record.within (r : Record) (size : Nat) : Decoded Record :=
  match r with
  | .named _ => .ok r
  | .listed items => if items.length ≤ size then .ok r else .error (.wrongShape "fewer items")

/-- Reads a value as a record of at most `size` fields. -/
def asRecord (size : Nat) : Json → Decoded Record
  | .object members => .ok (.named members)
  | .array items => Record.within (.listed items) size
  | _ => .error (.wrongShape "a record")

/-- Reads a choice with fields: the name of the alternative and the record of its fields. -/
def asTagged (tag : String) : Json → Decoded (String × Record)
  | .object members => do
    match ← member? members tag with
    | some name => return (← asText name, .named members)
    | none => .error (.missingField tag)
  | .array (name :: items) => do return (← asText name, .listed items)
  | _ => .error (.wrongShape "a tagged record")

end Handoff.Json
