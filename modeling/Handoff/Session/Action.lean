/-
# Handoff.Session.Action — what the panel is told

An action answers an event. It shows a notice, shows what was generated, or offers a text as a file.
-/

import Handoff.Settings.Component
import Handoff.Settings.Names

namespace Handoff.Session

open Json

/-- What one generation gives. -/
structure Output where
  /-- The module of the component. -/
  code : String
  stylesheet : String
  dialect : Stylesheet.Dialect
  unit : LengthUnit
  components : List UserComponent
  deriving DecidableEq, Inhabited

inductive Action where
  | notify (text : String)
  | render (output : Output)
  | download (text : String)
  deriving DecidableEq, Inhabited

/-- The output in the form that the panel takes. -/
def Output.encode (o : Output) : Json :=
  .object [
    ("generatedCodeStr", .text o.code),
    ("cssString", .text o.stylesheet),
    ("cssStyle", ofName Stylesheet.Dialect.names o.dialect),
    ("unitType", ofName LengthUnit.names o.unit),
    ("userComponentSettings", UserComponent.encodeList o.components)]

/-- What is shown after generated code was copied. -/
def copiedNotice : String :=
  "copied to clipboard👍"

end Handoff.Session
