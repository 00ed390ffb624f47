/-
# Handoff.Scene.Reading — scenes that are fit to be styled

A scene is read in two steps: the whole text is decoded, and then every node, visible or not, is checked
for a negative width or height. Decoding fails first whatever the sizes are; among nodes with a negative
size the first in pre-order is reported.
-/

import Handoff.Scene.Decoder
import Handoff.Json.Reader
import Handoff.Decimal.Shortest

namespace Handoff

/-- Why a text is not a scene. -/
inductive SceneError where
  | unreadable (cause : Json.ReadError)
  | undecodable (cause : Json.DecodeError)
  | negativeSize (name : String) (width height : Float)
  deriving Inhabited

namespace SceneNode

/-! ## Checking -/

mutual

/-- The nodes of a scene, each before its children. -/
def preorder : SceneNode → List SceneNode
  | n@(container _ _ _ children) => n :: preorderList children
  | n@(group _ children) => n :: preorderList children
  | n@(other _ _ children) => n :: preorderList children
  | n@(shape _ _ _) => [n]
  | n@(text _ _) => [n]

def preorderList : List SceneNode → List SceneNode
  | [] => []
  | n :: ns => preorder n ++ preorderList ns

end

/-- Whether a width or a height is below zero. -/
def hasNegativeSize (n : SceneNode) : Bool :=
  n.layer.width < 0 || n.layer.height < 0

/-- Refuses a node whose own size is negative. -/
def validateSize (n : SceneNode) : Except SceneError Unit :=
  if n.hasNegativeSize then .error (.negativeSize n.name n.layer.width n.layer.height) else .ok ()

mutual

/-- Refuses a scene with a negative size, at the first node that has one. -/
def validate : SceneNode → Except SceneError Unit
  | n@(container _ _ _ children) => do n.validateSize; validateList children
  | n@(group _ children) => do n.validateSize; validateList children
  | n@(other _ _ children) => do n.validateSize; validateList children
  | n@(shape _ _ _) => n.validateSize
  | n@(text _ _) => n.validateSize

def validateList : List SceneNode → Except SceneError Unit
  | [] => .ok ()
  | n :: ns => do validate n; validateList ns

end

/-! ## Reading -/

/-- Reads a document. -/
def readDocument (text : String) : Except SceneError Json :=
  (Json.read text).mapError .unreadable

/-- The scene of a document: decoded, and then checked. -/
def accept (j : Json) : Except SceneError SceneNode := do
  let node ← (ofDocument j).mapError .undecodable
  validate node
  return node

/-- The selection of a document, an array of scenes. All are decoded before any is checked. -/
def acceptSelection (j : Json) : Except SceneError (List SceneNode) := do
  let nodes ← (Json.asList ofDocument j).mapError .undecodable
  validateList nodes
  return nodes

/-- Reads a scene. -/
def read (text : String) : Except SceneError SceneNode := do
  accept (← readDocument text)

/-- Reads a selection. -/
def readSelection (text : String) : Except SceneError (List SceneNode) := do
  acceptSelection (← readDocument text)

end SceneNode

/-- What is said about a negative size. -/
def SceneError.sizeMessage (name : String) (width height : Float) : String :=
  "invalid scene: node '" ++ name ++ "' has negative size " ++ Decimal.text width ++ "x"
    ++ Decimal.text height

end Handoff
