/-
# Handoff.Proofs.Markup.Wrapper — what the wrapper of a component is rendered to

The text around a component is read as a template and rendered anew for every module. Neither can fail: the text is a
template, all that it names is among the values it is given, and both helpers are given a text. What comes out is the
module, whatever stands in names and body, since inserted text is not read again.
-/

import Handoff.Markup.Wrapper
import Handoff.Proofs.Json.Canonical

namespace Handoff

/-! ## Rendering -/

namespace Template

variable {members : List (String × Json)} {key s : String}

/-- A path of one key leads to the last member with this key. -/
theorem follow_canonical_object (h : members.reverse.lookup key = some (.text s)) :
    follow (Json.object members).canonical [key] = .ok (.text s) := by
  rw [Json.canonical_object, follow, Json.lookup_sortMembers, ← List.map_reverse, Json.lookup_map_value, h]
  rfl

/-- A key that is no helper gives the text of its member. -/
theorem renderPart_path (hplain : isHelper key = false) (h : members.reverse.lookup key = some (.text s)) :
    renderPart (Json.object members).canonical (.value (.path key [key])) = .ok s := by
  rw [renderPart, evalAlone, hplain, if_neg Bool.false_ne_true, follow_canonical_object h]
  rfl

end Template

namespace Markup

open Template

/-! ## The wrapper -/

/-- The name of the component, as the wrapper shapes it. -/
def wrapperName : Part :=
  .call "capitalize" [.call "sanitize" [.path "component" ["component"]]]

/-- The parts of the wrapper. -/
def wrapper : Template where
  parts := [.value (.path "preamble" ["preamble"]), .text "const ", wrapperName,
    .text ": React.FC = () => \x7b\n  return (\n", .value (.path "body" ["body"]),
    .text "\n  )\n\x7d\nexport default ", wrapperName, .text "\n"]

-- The reader recurses once for each character of the text.
set_option maxRecDepth 2000 in
theorem read?_wrapperSource : Template.read? wrapperSource = some wrapper := by
  with_unfolding_all rfl

theorem renderPart_wrapperName (dialect : Dialect) (t : Tag) :
    renderPart (wrapperValues dialect t).canonical wrapperName = .ok (componentName t) := by
  have hcomponent : follow (wrapperValues dialect t).canonical ["component"] = .ok (.text t.name) :=
    follow_canonical_object rfl
  simp only [wrapperName, renderPart, evalList, eval, hcomponent]
  rfl

/-- **A module is what its wrapper gives.** For every tag tree and both dialects the wrapper is read and rendered
without a failure, and the text is that of the module. -/
theorem renderedModule?_eq (dialect : Dialect) (t : Tag) :
    renderedModule? dialect t = some (.ok (moduleText dialect t)) := by
  have hpreamble : renderPart (wrapperValues dialect t).canonical (.value (.path "preamble" ["preamble"])) =
      .ok (preamble dialect t) := renderPart_path rfl rfl
  have hbody : renderPart (wrapperValues dialect t).canonical (.value (.path "body" ["body"])) =
      .ok (body dialect t) := renderPart_path rfl rfl
  have hname := renderPart_wrapperName dialect t
  have htext (content : String) : renderPart (wrapperValues dialect t).canonical (.text content) = .ok content := by
    rw [renderPart]
  have hparts : wrapper.parts.mapM (renderPart (wrapperValues dialect t).canonical) =
      .ok [preamble dialect t, "const ", componentName t, ": React.FC = () => \x7b\n  return (\n",
        body dialect t, "\n  )\n\x7d\nexport default ", componentName t, "\n"] := by
    simp only [wrapper, List.mapM_cons, List.mapM_nil, hpreamble, hbody, hname, htext]
    rfl
  rw [renderedModule?, read?_wrapperSource, Option.map_some, render, hparts]
  -- Both texts are the same eight pieces.
  show some (Except.ok (String.join _)) = _
  simp only [moduleText, String.join, List.foldl_cons, List.foldl_nil, String.empty_append]

end Markup

end Handoff
