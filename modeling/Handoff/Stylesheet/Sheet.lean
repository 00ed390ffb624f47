/-
# Handoff.Stylesheet.Sheet — the stylesheet of a tag tree

There are three dialects: flat rules, scoped rules, and the utility classes that the flat rules come to.
How flat rules become utility classes is a parameter; a sheet that it fails on is empty.
-/

import Handoff.Markup.Body
import Handoff.Stylesheet.Rules
import Handoff.Stylesheet.Utility

namespace Handoff.Stylesheet

inductive Dialect where
  /-- Class rules for plain elements. -/
  | flat
  /-- One styled element for each record. -/
  | scoped
  /-- Utility classes. -/
  | utility
  deriving DecidableEq, Inhabited

/-- The markup that goes with a stylesheet. -/
def Dialect.markup : Dialect → Markup.Dialect
  | .scoped => .componentBased
  | .flat => .elementBased
  | .utility => .elementBased

/-- All classes of an outcome, separated by spaces. -/
def Outcome.text : Outcome → String
  | .classes results => " ".intercalate (results.map (·.classes))
  | .failed => ""

/-- The stylesheet of a tag tree. -/
def sheet (toClasses : String → Outcome) (dialect : Dialect) (t : Tag) : String :=
  match dialect with
  | .flat => flatRules t
  | .scoped => scopedRules t
  | .utility => (toClasses (flatRules t)).text

end Handoff.Stylesheet
