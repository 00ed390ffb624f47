/-
# Handoff.Stylesheet.Rules — rules from a tag tree

A stylesheet is made of the style records of a tag tree in pre-order. Instances and component definitions
are styled elsewhere, so the walk stops at both, and empty records are left out. Each record gives one
block: a name and the lines of its declarations. Flat rules and scoped rules are two ways to write the
same list of blocks.
-/

import Handoff.Tag.Basic
import Handoff.Text.Identifier

namespace Handoff.Stylesheet

/-! ## Records -/

mutual

/-- The style records that a tag tree is styled with. -/
def records : Tag → List StyleRecord
  | ⟨head, children⟩ =>
    if head.isInstance || head.isDefinition then []
    else if head.style.isEmpty then recordsOfList children
    else head.style :: recordsOfList children

def recordsOfList : List Tag → List StyleRecord
  | [] => []
  | t :: ts => records t ++ recordsOfList ts

end

/-! ## Blocks -/

/-- A name and the declaration lines below it. -/
structure Block where
  name : String
  lines : List String
  deriving DecidableEq

def declarationLine (p : StyleProperty) : String :=
  "  " ++ p.name ++ ": " ++ p.value ++ ";"

def declarationLines (r : StyleRecord) : List String :=
  r.properties.map declarationLine

/-- The block of a flat rule: it is named as the markup looks it up. -/
def flatBlock (r : StyleRecord) : Block :=
  ⟨Text.sanitize r.className, declarationLines r⟩

/-- The block of a scoped rule: only blanks are removed from its name. -/
def scopedBlock (r : StyleRecord) : Block :=
  ⟨Text.dropBlanks r.className, declarationLines r⟩

/-! ## Text -/

/-- A block as a class rule. -/
def Block.flatText (b : Block) : String :=
  "." ++ b.name ++ " \x7b\n" ++ "\n".intercalate b.lines ++ "\n\x7d\n"

/-- A block as the declaration of a styled element. -/
def Block.scopedText (b : Block) : String :=
  "const " ++ b.name ++ " = styled.div`\n" ++ "\n".intercalate b.lines ++ "\n`\n"

/-- The class rules of a tag tree. -/
def flatRules (t : Tag) : String :=
  String.join ((records t).map fun r => (flatBlock r).flatText)

/-- The styled elements of a tag tree. -/
def scopedRules (t : Tag) : String :=
  String.join ((records t).map fun r => (scopedBlock r).scopedText)

end Handoff.Stylesheet
