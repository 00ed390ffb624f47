/-
# Handoff.Proofs.Style.Names — the properties that nodes declare, in order

Each group of rules declares at most its own properties, in one order, whatever the numbers and paints of
the node are. So the properties of a node are a sublist of a list that depends on nothing but its kind and,
for a container, on its layout. What is not in that list is never declared.
-/

import Handoff.Proofs.Style.ClassName

namespace Handoff

/-- The properties that are declared, in order. -/
def namesOf (rules : List StyleProperty) : List String :=
  rules.map (·.name)

@[simp]
theorem namesOf_append (rules more : List StyleProperty) :
    namesOf (rules ++ more) = namesOf rules ++ namesOf more :=
  List.map_append

/-! ## Properties by kind -/

/-- The properties of a container's automatic layout, with those of its two sizes. -/
def flexNames (main cross : String) : List String :=
  ["display", "flex-direction", "justify-content", "align-items", "flex-grow", main, cross, "padding", "gap"]

/-- The properties of a container's layout. -/
def LayoutMode.declaredNames : LayoutMode → List String
  | .none => ["height", "width"]
  | .horizontal => flexNames "width" "height"
  | .vertical => flexNames "height" "width"

namespace SceneNode

/-- The properties that a node's kind can call for, in order. -/
def kindNames : SceneNode → List String
  | container _ _ box _ =>
    ["border-radius"] ++ box.layoutMode.declaredNames ++ ["background", "background-color"] ++ ["border"]
  | shape .rectangle _ _ =>
    ["border-radius"] ++ ["height", "width"] ++ ["background", "background-color"] ++ ["border"]
  | shape .line _ _ => ["height", "width"] ++ ["border"]
  | shape .vector _ _ => []
  | text _ _ =>
    ["text-align", "vertical-align", "font-size"] ++ ["font-family"] ++ ["letter-spacing"]
      ++ ["line-height"] ++ ["text-decoration"] ++ ["color"]
  | _ => ["height", "width"]

/-! ## Groups of rules -/

section Groups

variable (n : SceneNode) (unit : LengthUnit)

theorem names_effectRules_sublist : (namesOf n.effectRules).Sublist ["opacity", "transform"] := by
  have hopacity : (namesOf n.opacityRules).Sublist ["opacity"] := by
    unfold opacityRules
    split
    · split <;> simp [namesOf]
    · simp [namesOf]
  have hrotation : (namesOf n.rotationRules).Sublist ["transform"] := by
    unfold rotationRules
    split <;> simp [namesOf]
  unfold effectRules
  split
  · simp [namesOf]
  · rw [namesOf_append]
    exact hopacity.append hrotation

theorem names_sizeRules_sublist : (namesOf n.sizeRules).Sublist ["height", "width"] := by
  unfold sizeRules
  split <;> simp [namesOf]

theorem names_radiusRules_sublist : (namesOf (n.radiusRules unit)).Sublist ["border-radius"] := by
  unfold radiusRules
  split <;> simp [namesOf]

theorem names_backgroundRules_sublist (fills : List Paint) :
    (namesOf (backgroundRules fills)).Sublist ["background", "background-color"] := by
  have hsingle (p : Paint) : [backgroundProperty p].Sublist ["background", "background-color"] := by
    unfold backgroundProperty
    split <;> simp
  unfold backgroundRules
  split
  next p _ =>
    split
    · simp [namesOf]
    · split
      · exact hsingle p
      · simp [namesOf]
  next => simp [namesOf]

theorem names_borderRules_sublist : (namesOf (n.borderRules unit)).Sublist ["border"] := by
  unfold borderRules
  split <;> simp [namesOf]

theorem names_imageRules : namesOf n.imageRules = ["background-image", "background-size"] := rfl

end Groups

theorem names_axisRules_sublist (sizing : Sizing) (name : String) (size : Float) :
    (namesOf (axisRules sizing name size)).Sublist [name] := by
  unfold axisRules
  split <;> simp [namesOf]

theorem names_flexRules_sublist (layer : Layer) (box : Container) (unit : LengthUnit) (direction : String)
    (main cross : String × Float) :
    (namesOf (flexRules layer box unit direction main cross)).Sublist (flexNames main.1 cross.1) := by
  have hgrow : (namesOf (if layer.grow != 0 then
      [⟨"flex-grow", formatNumber layer.grow⟩] else [])).Sublist ["flex-grow"] := by
    split <;> simp [namesOf]
  have hpadding : (namesOf (paddingRules box unit)).Sublist ["padding"] := by
    unfold paddingRules
    split <;> simp [namesOf]
  have hgap : (namesOf (gapRules box unit)).Sublist ["gap"] := by
    unfold gapRules
    split <;> simp [namesOf]
  have hsizes := (names_axisRules_sublist box.mainSizing main.1 main.2).append
    (names_axisRules_sublist box.crossSizing cross.1 cross.2)
  unfold flexRules
  simp only [namesOf_append, List.append_assoc]
  rw [← List.append_assoc (namesOf (axisRules _ main.1 _))]
  exact (List.Sublist.refl _).append (hgrow.append (hsizes.append (hpadding.append hgap)))

theorem names_layoutRules_sublist (n : SceneNode) (box : Container) (unit : LengthUnit) :
    (namesOf (layoutRules n box unit)).Sublist box.layoutMode.declaredNames := by
  unfold layoutRules
  cases box.layoutMode with
  | none => exact names_sizeRules_sublist n
  | horizontal => exact names_flexRules_sublist ..
  | vertical => exact names_flexRules_sublist ..

theorem names_textRules_sublist (layer : Layer) (run : TextRun) (unit : LengthUnit) :
    (namesOf (run.rules unit)).Sublist (text layer run).kindNames := by
  have hfont : (namesOf (if run.fontName.family.isEmpty then [] else
      [⟨"font-family", run.fontName.family⟩])).Sublist ["font-family"] := by
    split <;> simp [namesOf]
  have hspacing : (namesOf (run.letterSpacing.rules unit)).Sublist ["letter-spacing"] := by
    unfold LetterSpacing.rules
    split
    · split <;> simp [namesOf]
    · split <;> simp [namesOf]
  have hdecoration : (namesOf run.decoration.rules).Sublist ["text-decoration"] := by
    unfold TextDecoration.rules
    split <;> simp [namesOf]
  have hcolor : (namesOf (textColorRules run.fills)).Sublist ["color"] := by
    unfold textColorRules
    split <;> simp [namesOf]
  unfold TextRun.rules
  simp only [namesOf_append]
  exact (((((List.Sublist.refl _).append hfont).append hspacing).append (List.Sublist.refl _)).append
    hdecoration).append hcolor

/-- **The properties of a node's kind come in order.** -/
theorem names_kindRules_sublist (n : SceneNode) (unit : LengthUnit) :
    (namesOf (n.kindRules unit)).Sublist n.kindNames := by
  cases n with
  | container role layer box children =>
    unfold kindRules
    simp only [namesOf_append]
    exact (((names_radiusRules_sublist _ unit).append (names_layoutRules_sublist _ box unit)).append
      (names_backgroundRules_sublist box.fills)).append (names_borderRules_sublist _ unit)
  | group layer children => exact names_sizeRules_sublist _
  | other kind layer children => exact names_sizeRules_sublist _
  | text layer run => exact names_textRules_sublist layer run unit
  | shape form layer geometry =>
    cases form with
    | rectangle =>
      unfold kindRules
      simp only [namesOf_append]
      exact (((names_radiusRules_sublist _ unit).append (names_sizeRules_sublist _)).append
        (names_backgroundRules_sublist geometry.fills)).append (names_borderRules_sublist _ unit)
    | line =>
      unfold kindRules
      rw [namesOf_append]
      exact (names_sizeRules_sublist _).append (names_borderRules_sublist _ unit)
    | vector => exact List.Sublist.refl _
    | ellipse => exact names_sizeRules_sublist _
    | polygon => exact names_sizeRules_sublist _
    | star => exact names_sizeRules_sublist _

end SceneNode

end Handoff
