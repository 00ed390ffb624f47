/-
# Handoff.Proofs.Style.Lengths — what the unit of lengths decides

The unit is asked for where a length is written and nowhere else. Eight properties are given lengths; a
declaration of any other has the same value in every unit. Whether a property is declared at all never
depends on the unit, not even where four values are written as one and may come to nothing: that is decided
by the numbers, before any of them is written.
-/

import Handoff.Proofs.Style.ClassName

namespace Handoff

/-! ## Declarations without lengths -/

/-- The properties whose values may be lengths in the unit that is asked for. -/
def lengthProperties : List String :=
  ["left", "top", "border-radius", "padding", "gap", "border", "letter-spacing", "line-height"]

/-- The declaration, without its value if that may be a length. -/
def StyleProperty.withoutLength (p : StyleProperty) : StyleProperty :=
  if p.name ∈ lengthProperties then { p with value := "" } else p

/-- Without lengths, declarations are told apart by their properties, and by values that are no lengths. -/
theorem StyleProperty.withoutLength_eq_iff {p q : StyleProperty} :
    p.withoutLength = q.withoutLength ↔
      p.name = q.name ∧ (p.name ∉ lengthProperties → p.value = q.value) := by
  obtain ⟨name, value⟩ := p
  obtain ⟨name', value'⟩ := q
  unfold withoutLength
  constructor
  · intro h
    have hname : name = name' := by
      have hnames := congrArg StyleProperty.name h
      split at hnames <;> split at hnames <;> exact hnames
    subst hname
    refine ⟨rfl, fun hplain => ?_⟩
    rw [if_neg hplain, if_neg hplain] at h
    exact congrArg StyleProperty.value h
  · rintro ⟨hname, hvalue⟩
    dsimp only at hname hvalue ⊢
    subst hname
    by_cases hlength : name ∈ lengthProperties
    · rw [if_pos hlength, if_pos hlength]
    · rw [if_neg hlength, if_neg hlength, hvalue hlength]

/-- Two values of a property whose values may be lengths. -/
theorem StyleProperty.withoutLength_mk {name : String} (h : name ∈ lengthProperties)
    (value value' : String) :
    withoutLength ⟨name, value⟩ = withoutLength ⟨name, value'⟩ :=
  withoutLength_eq_iff.mpr ⟨rfl, fun hplain => absurd h hplain⟩

/-- Declarations without the values that may be lengths. -/
def withoutLengths (rules : List StyleProperty) : List StyleProperty :=
  rules.map StyleProperty.withoutLength

@[simp]
theorem withoutLengths_append (rules more : List StyleProperty) :
    withoutLengths (rules ++ more) = withoutLengths rules ++ withoutLengths more :=
  List.map_append

theorem withoutLengths_singleton {name : String} (h : name ∈ lengthProperties) (value value' : String) :
    withoutLengths [⟨name, value⟩] = withoutLengths [⟨name, value'⟩] := by
  unfold withoutLengths
  rw [List.map_singleton, List.map_singleton, StyleProperty.withoutLength_mk h value value']

/-! ## Shorthands -/

/-- Whether a padding is written does not depend on the unit. -/
theorem Sides.isSome_padding? (s : Sides) (unit unit' : LengthUnit) :
    (s.padding? unit).isSome = (s.padding? unit').isSome := by
  unfold padding?
  split
  · split <;> rfl
  · split <;> rfl

theorem isSome_uniformRadius? (radius : Float) (unit unit' : LengthUnit) :
    (uniformRadius? unit radius).isSome = (uniformRadius? unit' radius).isSome := by
  unfold uniformRadius?
  split <;> rfl

theorem CornerRadius.isSome_css? (radius : CornerRadius) (unit unit' : LengthUnit) :
    (radius.css? unit).isSome = (radius.css? unit').isSome := by
  cases radius with
  | uniform r => exact isSome_uniformRadius? r unit unit'
  | perCorner corners =>
    unfold css?
    dsimp only
    split
    · exact isSome_uniformRadius? corners.topLeft unit unit'
    · rfl

/-! ## Groups of rules -/

/-- The context with lengths in another unit. -/
def StyleContext.withUnit (ctx : StyleContext) (unit : LengthUnit) : StyleContext :=
  { ctx with unit }

namespace SceneNode

variable (n : SceneNode) (unit unit' : LengthUnit)

theorem withoutLengths_placeRules (ctx : StyleContext) :
    withoutLengths (n.placeRules (ctx.withUnit unit)) = withoutLengths (n.placeRules ctx) := by
  unfold placeRules StyleContext.withUnit
  split
  · unfold withoutLengths
    simp only [List.map_cons, List.cons.injEq, true_and, and_true]
    constructor
    · exact StyleProperty.withoutLength_mk (by decide) _ _
    · exact StyleProperty.withoutLength_mk (by decide) _ _
  · rfl

/-- Of a radius, only its value depends on the unit. -/
theorem withoutLengths_radiusRules :
    withoutLengths (n.radiusRules unit) = withoutLengths (n.radiusRules unit') := by
  have hsome : (n.borderRadius? unit).isSome = (n.borderRadius? unit').isSome := by
    unfold borderRadius?
    cases n.cornerRadius? with
    | none => rfl
    | some radius => exact radius.isSome_css? unit unit'
  unfold radiusRules
  cases h : n.borderRadius? unit <;> cases h' : n.borderRadius? unit' <;> rw [h, h'] at hsome
  · cases hsome
  · cases hsome
  · exact withoutLengths_singleton (by decide) _ _

/-- Of a border, its width does. -/
theorem withoutLengths_borderRules :
    withoutLengths (n.borderRules unit) = withoutLengths (n.borderRules unit') := by
  unfold borderRules
  split
  · exact withoutLengths_singleton (by decide) _ _
  · rfl

end SceneNode

section Containers

variable (box : Container) (unit unit' : LengthUnit)

theorem withoutLengths_paddingRules :
    withoutLengths (paddingRules box unit) = withoutLengths (paddingRules box unit') := by
  have hsome := box.padding.isSome_padding? unit unit'
  unfold paddingRules
  cases h : box.padding.padding? unit <;> cases h' : box.padding.padding? unit' <;> rw [h, h'] at hsome
  · cases hsome
  · cases hsome
  · exact withoutLengths_singleton (by decide) _ _

theorem withoutLengths_gapRules :
    withoutLengths (gapRules box unit) = withoutLengths (gapRules box unit') := by
  unfold gapRules
  split
  · exact withoutLengths_singleton (by decide) _ _
  · rfl

theorem withoutLengths_flexRules (layer : Layer) (direction : String) (main cross : String × Float) :
    withoutLengths (flexRules layer box unit direction main cross) =
      withoutLengths (flexRules layer box unit' direction main cross) := by
  unfold flexRules
  simp only [withoutLengths_append, withoutLengths_paddingRules box unit unit',
    withoutLengths_gapRules box unit unit']

/-- A literal size has no unit, and an automatic layout has one for its padding and its gap. -/
theorem withoutLengths_layoutRules (n : SceneNode) :
    withoutLengths (layoutRules n box unit) = withoutLengths (layoutRules n box unit') := by
  unfold layoutRules
  cases box.layoutMode with
  | none => rfl
  | horizontal => exact withoutLengths_flexRules ..
  | vertical => exact withoutLengths_flexRules ..

end Containers

/-- Of a text, its letter spacing and its line height depend on the unit, unless they are percentages. -/
theorem TextRun.withoutLengths_rules (run : TextRun) (unit unit' : LengthUnit) :
    withoutLengths (run.rules unit) = withoutLengths (run.rules unit') := by
  have hspacing : withoutLengths (run.letterSpacing.rules unit) =
      withoutLengths (run.letterSpacing.rules unit') := by
    unfold LetterSpacing.rules
    split
    · split
      · exact withoutLengths_singleton (by decide) _ _
      · rfl
    · rfl
  have hheight : withoutLengths [⟨"line-height", run.lineHeight.css unit⟩] =
      withoutLengths [⟨"line-height", run.lineHeight.css unit'⟩] :=
    withoutLengths_singleton (by decide) _ _
  unfold rules
  simp only [withoutLengths_append, hspacing, hheight]

/-! ## Nodes -/

namespace SceneNode

theorem withoutLengths_kindRules (n : SceneNode) (unit unit' : LengthUnit) :
    withoutLengths (n.kindRules unit) = withoutLengths (n.kindRules unit') := by
  cases n with
  | container role layer box children =>
    unfold kindRules
    simp only [withoutLengths_append, withoutLengths_radiusRules _ unit unit',
      withoutLengths_layoutRules box unit unit', withoutLengths_borderRules _ unit unit']
  | group layer children => rfl
  | other kind layer children => rfl
  | text layer run => exact run.withoutLengths_rules unit unit'
  | shape form layer geometry =>
    cases form with
    | rectangle =>
      unfold kindRules
      simp only [withoutLengths_append, withoutLengths_radiusRules _ unit unit',
        withoutLengths_borderRules _ unit unit']
    | line =>
      unfold kindRules
      rw [withoutLengths_append, withoutLengths_append, withoutLengths_borderRules _ unit unit']
    | _ => rfl

/-- **A node declares the same in every unit, but for lengths.** -/
theorem withoutLengths_declarations (n : SceneNode) (ctx : StyleContext) (unit : LengthUnit) :
    withoutLengths (n.declarations (ctx.withUnit unit)) = withoutLengths (n.declarations ctx) := by
  unfold declarations
  rw [withoutLengths_append, withoutLengths_append, withoutLengths_append, withoutLengths_append,
    withoutLengths_placeRules]
  congr 1
  split
  · rfl
  · exact withoutLengths_kindRules n unit ctx.unit

end SceneNode

/-! ## Records -/

/-- The record without the values that may be lengths. -/
def StyleRecord.withoutLengths (r : StyleRecord) : StyleRecord :=
  { r with properties := Handoff.withoutLengths r.properties }

theorem StyleRecord.withoutLengths_ofProperties (className : String) (properties : List StyleProperty) :
    (ofProperties className properties).withoutLengths =
      ofProperties className (Handoff.withoutLengths properties) := by
  cases properties <;> rfl

/-- The style of a node in another unit has the same class name and, but for lengths, the same
declarations. -/
theorem SceneNode.withoutLengths_inferStyle (n : SceneNode) (ctx : StyleContext) (unit : LengthUnit)
    (counter : Counter) :
    (n.inferStyle (ctx.withUnit unit) counter).1.withoutLengths =
      (n.inferStyle ctx counter).1.withoutLengths := by
  rw [inferStyle_eq, inferStyle_eq, StyleRecord.withoutLengths_ofProperties,
    StyleRecord.withoutLengths_ofProperties, withoutLengths_declarations]
  rfl

end Handoff
