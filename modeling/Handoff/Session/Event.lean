/-
# Handoff.Session.Event — what the settings panel says

The panel sends one event for every thing that its user does: two are passed through, and four change a
setting. An event is a record with its kind under `type`; the fields of other kinds are not looked at.
-/

import Handoff.Settings.Component
import Handoff.Settings.Names
import Handoff.Json.Reader

namespace Handoff.Session

open Json

/-- What a user did in the panel. -/
inductive Event where
  /-- Generated code was copied. -/
  | copied
  | stylesheetChosen (dialect : Stylesheet.Dialect)
  | unitChosen (unit : LengthUnit)
  | detectionChosen (detection : Detection)
  /-- A text was asked for as a file. -/
  | downloadAsked (text : String)
  | componentsDeclared (components : List UserComponent)
  deriving DecidableEq, Inhabited

/-- Why a text is not an event. -/
inductive EventError where
  | unreadable (cause : Json.ReadError)
  | undecodable (cause : Json.DecodeError)
  deriving Inhabited

namespace Event

/-- Reads a choice without fields inside an event. Beside what any such choice may be, it may be an
object with the name as its only key and an empty object as the value. -/
def asChoice (names : List (String × α)) : Json → Decoded α
  | .object [(name, .object [])] => lookupName names name
  | j => asName names j

def decode (j : Json) : Decoded Event := do
  let (kind, r) ← asTagged "type" j
  if kind = "notify-copy-success" then
    let _ ← r.within 0
    return .copied
  let r ← r.within 1
  if kind = "new-css-style-set" then
    return .stylesheetChosen (← r.required 0 "cssStyle" (asChoice Stylesheet.Dialect.names))
  else if kind = "new-unit-type-set" then
    return .unitChosen (← r.required 0 "unitType" (asChoice LengthUnit.names))
  else if kind = "new-identify-component-set" then
    return .detectionChosen (← r.required 0 "identify" (asChoice Detection.names))
  else if kind = "download-file" then
    return .downloadAsked (← r.required 0 "text" asText)
  else if kind = "update-user-component-settings" then
    return .componentsDeclared (← r.required 0 "userComponentSettings" UserComponent.decodeList)
  else .error (.unknownName kind)

/-- Reads an event. -/
def read (text : String) : Except EventError Event := do
  let j ← (Json.read text).mapError .unreadable
  (decode j).mapError .undecodable

/-- An event of a kind, with its fields. -/
def tagged (kind : String) (fields : List (String × Json)) : Json :=
  .object (("type", .text kind) :: fields)

def encode : Event → Json
  | copied => tagged "notify-copy-success" []
  | stylesheetChosen dialect =>
    tagged "new-css-style-set" [("cssStyle", ofName Stylesheet.Dialect.names dialect)]
  | unitChosen unit => tagged "new-unit-type-set" [("unitType", ofName LengthUnit.names unit)]
  | detectionChosen detection =>
    tagged "new-identify-component-set" [("identify", ofName Detection.names detection)]
  | downloadAsked content => tagged "download-file" [("text", .text content)]
  | componentsDeclared components =>
    tagged "update-user-component-settings"
      [("userComponentSettings", UserComponent.encodeList components)]

end Event

end Handoff.Session
