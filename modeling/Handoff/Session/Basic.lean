/-
# Handoff.Session.Basic — sessions

A session belongs to one selection. It generates code for the selected node and answers the events of the
settings panel: an event that changes a setting saves it first and then generates anew, with the new
setting in force even before the store is asked for it. Detection is a setting of the session itself and
is not saved.

`attempt` says what a generation gives; it does not change the session. `generate` remembers the
configuration of an attempt that succeeded, and nothing else.
-/

import Handoff.Markup.Module
import Handoff.Session.Action
import Handoff.Session.Event
import Handoff.Settings.Config
import Handoff.Stylesheet.Sheet

namespace Handoff

open Settings

/-! ## Failure -/

/-- Why nothing was generated. -/
inductive SessionError where
  /-- The selection does not consist of exactly one node, but of this many. -/
  | invalidSelection (count : Nat)
  /-- The selected node is hidden. -/
  | invisibleRoot (name : String)
  | store (cause : StoreError)
  deriving Inhabited

def SessionError.message : SessionError → String
  | .invalidSelection count => "expected exactly one selected node, found " ++ toString count
  | .invisibleRoot name => "selected node `" ++ name ++ "` is not visible"
  | .store cause => cause.message

/-- What the user is told. -/
def SessionError.notice : SessionError → String
  | .invalidSelection 0 => "Please select a node"
  | .invalidSelection _ => "Please select only 1 node"
  | .invisibleRoot _ => "Please select a visible node"
  | .store cause => cause.message

/-! ## Sessions -/

structure Session (σ : Type) where
  store : σ
  selection : List SceneNode
  /-- Applied to every tag tree behind the declared components. -/
  identify : Tag → Tag := id
  /-- How flat rules become utility classes. -/
  toClasses : String → Stylesheet.Outcome := Stylesheet.toUtility
  detection : Detection := .identify
  /-- The configuration of the last generation that succeeded. -/
  lastConfig : Option Config := none

namespace Session

/-! ## Generation -/

/-- The selected node, if it is the only one. -/
def root (selection : List SceneNode) : Except SessionError SceneNode :=
  match selection with
  | [node] => .ok node
  | nodes => .error (.invalidSelection nodes.length)

/-- What a configuration and declared components make of a node; nothing if the node is hidden. -/
def output? (s : Session σ) (node : SceneNode) (config : Config) (components : List UserComponent) :
    Option Output :=
  (Tag.build node config.unit config.detection {}).1.map fun built =>
    let t := s.identify (built.identify components)
    { code := Markup.moduleText config.markupDialect t
      stylesheet := Stylesheet.sheet s.toClasses config.stylesheet t
      dialect := config.stylesheet
      unit := config.unit
      components }

/-- What a request asks for, with the session's detection where it does not ask for any. -/
def complete (s : Session σ) (overrides : Overrides) : Overrides :=
  { overrides with detection := overrides.detection <|> some s.detection }

variable {σ : Type} [Store σ]

/-- What a generation gives, and the configuration that it runs with. -/
def attempt (s : Session σ) (overrides : Overrides) : Except SessionError (Config × Output) := do
  let node ← root s.selection
  let config ← ((s.complete overrides).resolve s.store).mapError .store
  let kept ← (load s.store componentsKey UserComponent.decodeList).mapError .store
  match s.output? node config (kept.getD []) with
  | some output => return (config, output)
  | none => throw (.invisibleRoot node.name)

/-- Generates code for the selected node. -/
def generate (s : Session σ) (overrides : Overrides) : Session σ × Except SessionError Output :=
  match s.attempt overrides with
  | .ok (config, output) => ({ s with lastConfig := some config }, .ok output)
  | .error e => (s, .error e)

/-! ## Events -/

/-- Generates code and shows it. -/
def render (s : Session σ) (overrides : Overrides) : Session σ × Except SessionError Action :=
  let (s, result) := s.generate overrides
  (s, result.map .render)

/-- Saves a setting; what the store has become is kept even if it failed. -/
def save (s : Session σ) (key : String) (value : Json) : Session σ × Except SessionError Unit :=
  let (store, result) := Store.set s.store key value
  ({ s with store }, result.mapError .store)

/-- Saves a setting, and generates code if that succeeded. -/
def saveAndRender (s : Session σ) (key : String) (value : Json) (overrides : Overrides) :
    Session σ × Except SessionError Action :=
  match s.save key value with
  | (s, .ok ()) => s.render overrides
  | (s, .error e) => (s, .error e)

/-- Answers an event. -/
def handle (s : Session σ) : Event → Session σ × Except SessionError Action
  | .copied => (s, .ok (.notify copiedNotice))
  | .downloadAsked text => (s, .ok (.download text))
  | .stylesheetChosen dialect =>
    s.saveAndRender stylesheetKey (Json.ofName Stylesheet.Dialect.names dialect)
      { stylesheet := some dialect }
  | .unitChosen unit =>
    s.saveAndRender unitKey (Json.ofName LengthUnit.names unit) { unit := some unit }
  | .detectionChosen detection =>
    { s with detection }.render { detection := some detection }
  | .componentsDeclared components =>
    s.saveAndRender componentsKey (UserComponent.encodeList components) {}

/-- An action, or the notice of the failure in its place. -/
def orNotice : Except SessionError Action → Action
  | .ok action => action
  | .error e => .notify e.notice

/-- Answers an event; a failure becomes a notice. -/
def respond (s : Session σ) (event : Event) : Session σ × Action :=
  let (s, result) := s.handle event
  (s, orNotice result)

/-- What is shown when the panel opens. -/
def start (s : Session σ) : Session σ × Action :=
  let (s, result) := s.render {}
  (s, orNotice result)

end Session

end Handoff
