/-
# Handoff.Proofs.Style.Compact — values that utility classes can take over

A utility class takes over the value of some properties as it is, and cuts a padding into its parts. Neither is
ever a matter of luck: whatever numbers and texts a scene holds, the values that are taken over are words, and a
padding is written as one, two or four lengths. All other properties are told apart by their names alone.
-/

import Handoff.Proofs.Style.WellFormed
import Handoff.Proofs.Stylesheet.Classes

namespace Handoff

open Stylesheet (verbatimProperties)
open Text (IsWord)

/-! ## Compact declarations -/

/-- A declaration with a value that a class can take over, or that is cut into lengths. -/
structure StyleProperty.IsCompact (p : StyleProperty) : Prop where
  verbatim : p.name ∈ verbatimProperties → IsWord p.value
  /-- One length for all sides, two for the axes or four for the sides. -/
  padding : p.name = "padding" →
    ∃ lengths, p.value = " ".intercalate lengths ∧ lengths.length ∈ [1, 2, 4] ∧ ∀ l ∈ lengths, IsWord l

/-- A group of rules that declares compactly. -/
def AllCompact (rules : List StyleProperty) : Prop :=
  ∀ p ∈ rules, p.IsCompact

theorem AllCompact.append {rules more : List StyleProperty} (h : AllCompact rules) (hmore : AllCompact more) :
    AllCompact (rules ++ more) :=
  List.forall_mem_append.mpr ⟨h, hmore⟩

theorem allCompact_ite {condition : Prop} [Decidable condition] {rules : List StyleProperty}
    (h : AllCompact rules) : AllCompact (if condition then rules else []) := by
  split
  · exact h
  · exact List.forall_mem_nil _

/-- Most properties are never taken over as they are. -/
theorem allCompact_of_sublist {rules : List StyleProperty} {names : List String}
    (h : (namesOf rules).Sublist names) (hnames : ∀ name ∈ names, name ∉ "padding" :: verbatimProperties) :
    AllCompact rules := by
  intro p hp
  have hother := hnames p.name (h.subset (List.mem_map_of_mem hp))
  rw [List.mem_cons, not_or] at hother
  exact ⟨fun hverbatim => absurd hverbatim hother.2, fun hpadding => absurd hpadding hother.1⟩

theorem allCompact_other {name value : String} (h : name ∉ "padding" :: verbatimProperties) :
    AllCompact [⟨name, value⟩] :=
  allCompact_of_sublist (List.Sublist.refl [name]) (List.forall_mem_singleton.mpr h)

/-- A word may be declared for any property but the padding. -/
theorem allCompact_word {name value : String} (hname : name ≠ "padding") (hvalue : IsWord value) :
    AllCompact [⟨name, value⟩] :=
  List.forall_mem_singleton.mpr ⟨fun _ => hvalue, fun hpadding => absurd hpadding hname⟩

/-! ## Groups of rules -/

theorem allCompact_effectRules (n : SceneNode) : AllCompact n.effectRules := by
  have hopacity : AllCompact n.opacityRules := by
    unfold SceneNode.opacityRules
    split
    · exact allCompact_ite (allCompact_word (by decide) (isWord_formatNumber _))
    · exact List.forall_mem_nil _
  have hrotation : AllCompact n.rotationRules := allCompact_ite (allCompact_other (by decide))
  unfold SceneNode.effectRules
  split
  · exact List.forall_mem_nil _
  · exact hopacity.append hrotation

/-- A padding is written from its lengths. -/
theorem exists_lengths_of_padding? {s : Sides} {unit : LengthUnit} {value : String}
    (h : s.padding? unit = some value) :
    ∃ lengths, value = " ".intercalate lengths ∧ lengths.length ∈ [1, 2, 4] ∧ ∀ l ∈ lengths, IsWord l := by
  have hsizes (pixels : List Float) : ∀ l ∈ pixels.map unit.formatSize, IsWord l := by
    intro l hl
    obtain ⟨x, -, rfl⟩ := List.mem_map.mp hl
    exact isWord_formatSize unit x
  rw [Sides.padding?] at h
  split at h
  · split at h
    · cases h
      exact ⟨_, (String.intercalate_singleton ..).symm, by simp, hsizes [s.top]⟩
    · cases h
  · split at h
    · cases h
      exact ⟨_, rfl, by simp, hsizes _⟩
    · cases h
      exact ⟨_, rfl, by simp, hsizes _⟩

theorem allCompact_paddingRules (box : Container) (unit : LengthUnit) : AllCompact (paddingRules box unit) := by
  have hother : "padding" ∉ verbatimProperties := by decide
  unfold paddingRules
  split
  next padding hpadding =>
    exact List.forall_mem_singleton.mpr
      ⟨fun hverbatim => absurd hverbatim hother, fun _ => exists_lengths_of_padding? hpadding⟩
  next => exact List.forall_mem_nil _

theorem allCompact_axisRules (sizing : Sizing) {name : String} (size : Float) (hname : name ≠ "padding") :
    AllCompact (axisRules sizing name size) :=
  allCompact_ite (allCompact_word hname (isWord_formatPixelFloor _))

theorem allCompact_flexRules (layer : Layer) (box : Container) (unit : LengthUnit) (direction : String)
    {main cross : String × Float} (hmain : main.1 ≠ "padding") (hcross : cross.1 ≠ "padding") :
    AllCompact (flexRules layer box unit direction main cross) := by
  have hfront : AllCompact [⟨"display", "flex"⟩, ⟨"flex-direction", direction⟩,
      ⟨"justify-content", box.mainAlign.css⟩, ⟨"align-items", box.crossAlign.css⟩] :=
    allCompact_of_sublist
      (List.Sublist.refl ["display", "flex-direction", "justify-content", "align-items"]) (by decide)
  have hgrow : AllCompact (if layer.grow != 0 then [⟨"flex-grow", formatNumber layer.grow⟩] else []) :=
    allCompact_ite (allCompact_word (by decide) (isWord_formatNumber _))
  have hgap : AllCompact (gapRules box unit) :=
    allCompact_ite (allCompact_word (by decide) (isWord_formatSize _ _))
  exact ((((hfront.append hgrow).append (allCompact_axisRules _ _ hmain)).append
    (allCompact_axisRules _ _ hcross)).append (allCompact_paddingRules box unit)).append hgap

theorem allCompact_layoutRules (n : SceneNode) (box : Container) (unit : LengthUnit) :
    AllCompact (layoutRules n box unit) := by
  have hwidth : "width" ≠ "padding" := by decide
  have hheight : "height" ≠ "padding" := by decide
  unfold layoutRules
  cases box.layoutMode with
  | none => exact allCompact_of_sublist (SceneNode.names_sizeRules_sublist n) (by decide)
  | horizontal => exact allCompact_flexRules _ _ _ _ hwidth hheight
  | vertical => exact allCompact_flexRules _ _ _ _ hheight hwidth

theorem allCompact_textRules (run : TextRun) (unit : LengthUnit) : AllCompact (run.rules unit) := by
  have hpercent (x : Float) : IsWord (formatNumber x ++ "%") := (isWord_formatNumber x).append (by decide)
  have haligned : AllCompact [⟨"text-align", run.align.css⟩, ⟨"vertical-align", run.verticalAlign.css⟩] :=
    allCompact_of_sublist (List.Sublist.refl ["text-align", "vertical-align"]) (by decide)
  have hsize : AllCompact [⟨"font-size", formatNumber run.fontSize ++ "px"⟩] :=
    allCompact_word (by decide) ((isWord_formatNumber _).append (by decide))
  have hfont : AllCompact run.fontRules := by
    unfold TextRun.fontRules
    split
    · exact List.forall_mem_nil _
    · exact allCompact_other (by decide)
  have hspacing : AllCompact (run.letterSpacing.rules unit) := by
    cases run.letterSpacing with
    | pixels value => exact allCompact_ite (allCompact_word (by decide) (isWord_formatSize _ _))
    | percent value => exact allCompact_ite (allCompact_word (by decide) (hpercent _))
  have hheight : AllCompact [⟨"line-height", run.lineHeight.css unit⟩] := by
    refine allCompact_word (by decide) ?_
    cases run.lineHeight with
    | auto => exact (by decide : IsWord "auto")
    | pixels value => exact isWord_formatSize _ _
    | percent value => exact hpercent _
  have hdecoration : AllCompact run.decoration.rules := by
    cases run.decoration with
    | underline => exact allCompact_other (by decide)
    | strikethrough => exact allCompact_other (by decide)
    | none => exact List.forall_mem_nil _
  have hcolor : AllCompact (textColorRules run.fills) := by
    unfold textColorRules
    split
    · exact allCompact_other (by decide)
    · exact List.forall_mem_nil _
  exact (((((haligned.append hsize).append hfont).append hspacing).append hheight).append
    hdecoration).append hcolor

/-! ## Nodes -/

namespace SceneNode

theorem allCompact_kindRules (n : SceneNode) (unit : LengthUnit) : AllCompact (n.kindRules unit) := by
  have hsize : AllCompact n.sizeRules := allCompact_of_sublist (names_sizeRules_sublist n) (by decide)
  have hradius : AllCompact (n.radiusRules unit) :=
    allCompact_of_sublist (names_radiusRules_sublist n unit) (by decide)
  have hbackground (fills : List Paint) : AllCompact (backgroundRules fills) :=
    allCompact_of_sublist (names_backgroundRules_sublist fills) (by decide)
  have hborder : AllCompact (n.borderRules unit) :=
    allCompact_of_sublist (names_borderRules_sublist n unit) (by decide)
  cases n with
  | container role layer box children =>
    exact ((hradius.append (allCompact_layoutRules _ box unit)).append (hbackground box.fills)).append hborder
  | group layer children => exact hsize
  | other kind layer children => exact hsize
  | text layer run => exact allCompact_textRules run unit
  | shape form layer geometry =>
    cases form with
    | rectangle => exact ((hradius.append hsize).append (hbackground geometry.fills)).append hborder
    | line => exact hsize.append hborder
    | vector => exact List.forall_mem_nil _
    | ellipse => exact hsize
    | polygon => exact hsize
    | star => exact hsize

/-- Every node declares compactly. -/
theorem allCompact_declarations (n : SceneNode) (ctx : StyleContext) : AllCompact (n.declarations ctx) := by
  refine ((allCompact_of_sublist (names_placeRules_sublist n ctx) (by decide)).append
    (allCompact_effectRules n)).append ?_
  split
  · exact allCompact_of_sublist (List.Sublist.refl ["background-image", "background-size"]) (by decide)
  · exact allCompact_kindRules n ctx.unit

end SceneNode

end Handoff
