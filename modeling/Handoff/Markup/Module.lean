/-
# Handoff.Markup.Module — the module of a component

A module imports what its body refers to, declares one function component and exports it. The
element-based dialect imports the stylesheet; both import each component that the body has an instance
of, once, in the order in which the instances first appear. Instances below another instance are not
written and not imported.
-/

import Handoff.Markup.Body

namespace Handoff.Markup

/-! ## Imports -/

mutual

/-- The names of the instances that the body of a tag tree refers to, in order. -/
def instanceNames : Tag → List String
  | ⟨head, children⟩ => if head.isInstance then [head.name] else instanceNamesOfList children

def instanceNamesOfList : List Tag → List String
  | [] => []
  | t :: ts => instanceNames t ++ instanceNamesOfList ts

end

/-- An import of a component: the local name, and the name in the path. -/
structure Import where
  localName : String
  component : String
  deriving DecidableEq

/-- The components that a module imports: one for each instance name, in the order of first mention. -/
def imports (t : Tag) : List Import :=
  (instanceNames t).eraseDups.map fun name => ⟨Text.capitalize name, name⟩

def Import.text (i : Import) : String :=
  "import " ++ i.localName ++ " from '@/components/" ++ i.component ++ "'\n"

/-- The import of the stylesheet. -/
def stylesImport : Dialect → String
  | .elementBased => "import styles from './index.css'\n"
  | .componentBased => ""

/-- The import lines, with an empty line behind them if there are any. -/
def preamble (dialect : Dialect) (t : Tag) : String :=
  let lines := stylesImport dialect ++ String.join ((imports t).map Import.text)
  if lines.isEmpty then "" else lines ++ "\n"

/-! ## The module -/

/-- The name of the component that a module declares. -/
def componentName (t : Tag) : String :=
  Text.capitalize (Text.sanitize t.name)

/-- The text of a module. -/
def moduleText (dialect : Dialect) (t : Tag) : String :=
  preamble dialect t ++ "const " ++ componentName t ++ ": React.FC = () => \x7b\n  return (\n"
    ++ body dialect t ++ "\n  )\n\x7d\nexport default " ++ componentName t ++ "\n"

end Handoff.Markup
