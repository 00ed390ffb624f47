/-
# Handoff.Markup.Wrapper — the module of a component as a template

What stands around the imports and the body of a component is a template. It is given the import lines, the name of
the tag tree and the body, and shapes the name by itself, once for the declaration and once for the export.
-/

import Handoff.Markup.Module
import Handoff.Template.Reader
import Handoff.Template.Rendering

namespace Handoff.Markup

/-- The text of the template. -/
def wrapperSource : String :=
  "\x7b\x7bpreamble\x7d\x7dconst \x7b\x7bcapitalize (sanitize component)\x7d\x7d: React.FC = () => \x7b\n"
    ++ "  return (\n\x7b\x7bbody\x7d\x7d\n  )\n\x7d\n"
    ++ "export default \x7b\x7bcapitalize (sanitize component)\x7d\x7d\n"

/-- What the template is given for a tag tree. -/
def wrapperValues (dialect : Dialect) (t : Tag) : Json :=
  .object [("preamble", .text (preamble dialect t)), ("component", .text t.name),
    ("body", .text (body dialect t))]

/-- What the template gives for a tag tree; nothing if its text is no template. -/
def renderedModule? (dialect : Dialect) (t : Tag) : Option (Except Template.RenderError String) :=
  (Template.read? wrapperSource).map fun wrapper => wrapper.render (wrapperValues dialect t)

end Handoff.Markup
