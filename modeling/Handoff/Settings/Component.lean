/-
# Handoff.Settings.Component — declared components as values

A declared component is a record of its name and its properties, a property a record of its name, its
value and whether the value is an expression. Only names and values have to be given.
-/

import Handoff.Json.Record
import Handoff.Tag.Component

namespace Handoff

open Json

def ComponentProp.decode (j : Json) : Decoded ComponentProp := do
  let r ← asRecord 3 j
  return { name := ← r.required 0 "name" asText
           value := ← r.required 1 "value" asText
           isExpression := ← r.optional 2 "isRawExpression" false asBool }

def UserComponent.decode (j : Json) : Decoded UserComponent := do
  let r ← asRecord 2 j
  return { name := ← r.required 0 "name" asText
           props := ← r.optional 1 "props" [] (asList ComponentProp.decode) }

def ComponentProp.encode (p : ComponentProp) : Json :=
  .object [("isRawExpression", .bool p.isExpression), ("name", .text p.name),
    ("value", .text p.value)]

def UserComponent.encode (c : UserComponent) : Json :=
  .object [("name", .text c.name), ("props", .array (c.props.map ComponentProp.encode))]

/-- Reads a list of declared components. -/
def UserComponent.decodeList : Json → Decoded (List UserComponent) :=
  asList UserComponent.decode

/-- A list of declared components as a value. -/
def UserComponent.encodeList (components : List UserComponent) : Json :=
  .array (components.map UserComponent.encode)

end Handoff
