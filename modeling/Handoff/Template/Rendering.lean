/-
# Handoff.Template.Rendering — what a template gives for some data

Rendering follows the paths of a template into the data and applies helpers to what it finds there. A
path that leads nowhere gives null, and null gives no text; only a key that cannot be an index of the
array it is used on is an error, and so are arguments that a helper does not take.

A value alone in a tag is taken for the name of a helper first: a path by the way it is written, a call
by what it gives. A helper that is named so is called without arguments.
-/

import Handoff.Decimal.Literal
import Handoff.Json.Printer
import Handoff.Template.Basic
import Handoff.Template.Helper
import Handoff.Text.Front

namespace Handoff.Template

/-- Why a template cannot be rendered. -/
inductive RenderError where
  | unknownHelper (name : String)
  | badArguments (helper : String)
  | badIndex (key : String)
  | unknownTemplate (name : String)
  deriving DecidableEq, Inhabited

/-! ## Values -/

/-- The position in an array that a key stands for: digits with or without a plus sign in front, if the
number fits 64 bits. -/
def index? (key : String) : Option Nat :=
  let digits := Text.skipChar '+' key.toList
  let n := Decimal.digitsValue digits
  if digits.isEmpty || !digits.all Char.isDigit || UInt64.size ≤ n then none else some n

/-- Follows a path into a value; null where it leads nowhere. -/
def follow : Json → List String → Except RenderError Json
  | value, [] => .ok value
  | .object members, key :: keys =>
    match members.lookup key with
    | some value => follow value keys
    | none => .ok .null
  | .array items, key :: keys =>
    match index? key with
    | none => .error (.badIndex key)
    | some i =>
      match items[i]? with
      | some value => follow value keys
      | none => .ok .null
  | _, _ :: _ => .ok .null

/-- Calls a helper with the values of its arguments. -/
def callHelper (name : String) (values : List Json) : Except RenderError Json :=
  match helpers.lookup name with
  | none => .error (.unknownHelper name)
  | some helper =>
    match helper values with
    | some value => .ok value
    | none => .error (.badArguments name)

mutual

/-- The value of an expression. -/
def eval (data : Json) : Expr → Except RenderError Json
  | .path _ keys => follow data keys
  | .surrounding _ => .ok .null
  | .literal value => .ok value
  | .call helper arguments => do callHelper helper (← evalList data arguments)

def evalList (data : Json) : List Expr → Except RenderError (List Json)
  | [] => .ok []
  | e :: es => do return (← eval data e) :: (← evalList data es)

end

/-! ## Text -/

mutual

/-- The text that a value is inserted as. -/
def valueText : Json → String
  | .null => ""
  | .text value => value
  | .array items => "[" ++ ", ".intercalate (valueTexts items) ++ "]"
  | .object _ => "[object]"
  | .bool value => if value then "true" else "false"
  | .number value => value.text

def valueTexts : List Json → List String
  | [] => []
  | item :: items => valueText item :: valueTexts items

end

/-- The value of a tag that holds no more than an expression. -/
def evalAlone (data : Json) : Expr → Except RenderError Json
  | .path written keys => if isHelper written then callHelper written [] else follow data keys
  | expr => do
    let value ← eval data expr
    if isHelper (valueText value) then callHelper (valueText value) [] else return value

/-- The text that a part gives. -/
def renderPart (data : Json) : Part → Except RenderError String
  | .text content => .ok content
  | .call helper arguments => do
    return valueText (← callHelper helper (← evalList data arguments))
  | .value expr => do return valueText (← evalAlone data expr)

/-- The text of a template with the given data. -/
def render (t : Template) (data : Json) : Except RenderError String := do
  return String.join (← t.parts.mapM (renderPart data.canonical))

/-- Renders the template of this name among those that are registered. -/
def renderNamed (templates : List (String × Template)) (name : String) (data : Json) :
    Except RenderError String :=
  match templates.lookup name with
  | some t => t.render data
  | none => .error (.unknownTemplate name)

end Handoff.Template
