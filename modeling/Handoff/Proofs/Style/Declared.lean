/-
# Handoff.Proofs.Style.Declared — what nodes declare

Style inference puts the declarations of a node together from groups of rules. Every declaration of every
group has a property from one list and a value that is a phrase, whatever numbers, colours and images the
scene holds. The one exception is the font family, which is taken from the scene as it is: only a scene
whose families can be read back gives declarations that can.
-/

import Handoff.Proofs.Style.ClassName
import Handoff.Proofs.Style.Numeral
import Handoff.Proofs.Stylesheet.ReadBack

namespace Handoff

open Text (IsWord IsPhrase IsPlainText isPlain)

/-! ## Colours -/

theorem isPlainText_hexByte (b : UInt8) : IsPlainText (hexByte b) := by
  -- Each half of a byte is one of sixteen digits.
  have hdigits : ∀ d < 16, (Nat.toDigits 16 d).all isPlain := by decide
  have hlt : b.toNat < 256 := b.toNat_lt
  intro c hc
  rw [hexByte, String.toList_ofList, List.mem_append] at hc
  rcases hc with hc | hc
  · exact .inl (List.all_eq_true.mp (hdigits _ (by omega)) c hc)
  · exact .inl (List.all_eq_true.mp (hdigits _ (by omega)) c hc)

theorem isPlainText_decimalByte (b : UInt8) : IsPlainText (decimalByte b) :=
  (Text.isWord_toString _).text

theorem isPlainText_formatNumber (x : Float) : IsPlainText (formatNumber x) :=
  (isWord_formatNumber x).text

theorem isPhrase_hex (c : Rgb) : IsPhrase c.hex := by
  have hsign : IsPhrase "#" := by decide
  exact ((hsign.append (isPlainText_hexByte _)).append (isPlainText_hexByte _)).append
    (isPlainText_hexByte _)

/-- Three channels and an opacity, up to the end of the opacity. -/
theorem isPhrase_rgba (r g b : UInt8) (opacity : Float) :
    IsPhrase ("rgba(" ++ decimalByte r ++ ", " ++ decimalByte g ++ ", " ++ decimalByte b ++ ", "
      ++ formatNumber opacity) := by
  have hfront : IsPhrase "rgba(" := by decide
  have hcomma : IsPlainText ", " := by decide
  exact ((((((hfront.append (isPlainText_decimalByte r)).append hcomma).append
    (isPlainText_decimalByte g)).append hcomma).append (isPlainText_decimalByte b)).append hcomma).append
      (isPlainText_formatNumber opacity)

theorem isPhrase_translucent (c : Rgb) (opacity : Float) : IsPhrase (c.translucent opacity) := by
  have hend : IsPlainText ")" := by decide
  exact (isPhrase_rgba _ _ _ opacity).append hend

theorem isPhrase_rgb_css (c : Rgb) (opacity : Option Float) : IsPhrase (c.css opacity) := by
  cases opacity with
  | none => exact isPhrase_hex c
  | some o =>
    show IsPhrase (if o < 1 then c.translucent o else c.hex)
    split
    · exact isPhrase_translucent c o
    · exact isPhrase_hex c

theorem isPlainText_colorStop (s : ColorStop) : IsPlainText s.css := by
  have hend : IsPlainText ") " := by decide
  have hpercent : IsPlainText "%" := by decide
  exact (((isPhrase_rgba _ _ _ s.color.a).append hend).append (isPlainText_formatNumber _)).append
    hpercent |>.text

theorem isPhrase_linearGradientCss (stops : List ColorStop) (transform : Transform) :
    IsPhrase (linearGradientCss stops transform) := by
  have hfront : IsPhrase "linear-gradient(" := by decide
  have hstops : IsPlainText (", ".intercalate (stops.map ColorStop.css)) := by
    refine Text.isPlainText_intercalate (by decide) fun part hpart => ?_
    obtain ⟨s, -, rfl⟩ := List.mem_map.mp hpart
    exact isPlainText_colorStop s
  exact (((hfront.append (isPlainText_formatNumber _)).append (by decide)).append hstops).append
    (by decide)

theorem isPhrase_of_paint_css? {p : Paint} {value : String} (h : p.css? = some value) :
    IsPhrase value := by
  rw [Paint.css?] at h
  split at h
  next color _ =>
    cases h
    exact isPhrase_rgb_css _ _
  next =>
    split at h
    · cases h
    · cases h
      exact isPhrase_linearGradientCss _ _
  next => cases h
  next => cases h

/-! ## Regular declarations -/

/-- The properties that are declared with values made from numbers, keywords and colours. -/
def regularProperties : List String :=
  ["position", "left", "top", "opacity", "transform", "height", "width", "border-radius", "background",
    "background-color", "border", "background-image", "background-size", "padding", "gap", "display",
    "flex-direction", "justify-content", "align-items", "flex-grow", "letter-spacing", "text-decoration",
    "color", "text-align", "vertical-align", "font-size", "line-height"]

/-- A declaration with one of these properties whose value is a phrase. -/
structure StyleProperty.IsRegular (p : StyleProperty) : Prop where
  name : p.name ∈ regularProperties
  value : IsPhrase p.value

instance (p : StyleProperty) : Decidable p.IsRegular :=
  decidable_of_iff (p.name ∈ regularProperties ∧ IsPhrase p.value)
    ⟨fun h => ⟨h.1, h.2⟩, fun h => ⟨h.1, h.2⟩⟩

/-- A group of rules that declares regularly. -/
def AllRegular (rules : List StyleProperty) : Prop :=
  ∀ p ∈ rules, p.IsRegular

instance (rules : List StyleProperty) : Decidable (AllRegular rules) :=
  inferInstanceAs (Decidable (∀ p ∈ rules, _))

theorem allRegular_nil : AllRegular [] :=
  List.forall_mem_nil _

theorem isRegular_mk {name value : String} (hname : name ∈ regularProperties) (hvalue : IsPhrase value) :
    StyleProperty.IsRegular ⟨name, value⟩ :=
  ⟨hname, hvalue⟩

theorem allRegular_cons {p : StyleProperty} {rules : List StyleProperty} (hp : p.IsRegular)
    (h : AllRegular rules) : AllRegular (p :: rules) :=
  List.forall_mem_cons.mpr ⟨hp, h⟩

theorem allRegular_singleton {p : StyleProperty} (hp : p.IsRegular) : AllRegular [p] :=
  allRegular_cons hp allRegular_nil

theorem AllRegular.append {rules more : List StyleProperty} (h : AllRegular rules)
    (hmore : AllRegular more) : AllRegular (rules ++ more) := by
  intro p hp
  rcases List.mem_append.mp hp with hp | hp
  · exact h p hp
  · exact hmore p hp

/-- No sign that ends a declaration is plain, so a phrase is read back. -/
theorem readable_of_isRegular {p : StyleProperty} (h : p.IsRegular) : Stylesheet.ReadableProperty p := by
  have hnames : ∀ name ∈ regularProperties,
      name ≠ "" ∧ name.toList.all fun c => c.isAlphanum || c == '-' := by
    decide
  obtain ⟨hne, hname⟩ := hnames p.name h.name
  refine ⟨hne, by simpa using hname, fun c hc => ?_, ?_⟩
  · rcases h.value.text c hc with hplain | rfl
    · exact ⟨Text.ne_of_isPlain hplain rfl, Text.ne_of_isPlain hplain rfl⟩
    · decide
  · obtain ⟨c, hc, hplain⟩ := h.value.plain
    exact ⟨c, hc, Text.isBlank_of_isPlain hplain⟩

theorem allRegular_ite {condition : Prop} [Decidable condition] {rules : List StyleProperty}
    (h : AllRegular rules) : AllRegular (if condition then rules else []) := by
  split
  · exact h
  · exact allRegular_nil

/-! ## Groups of rules -/

section Groups

variable (n : SceneNode) (unit : LengthUnit)

theorem allRegular_placeRules (ctx : StyleContext) : AllRegular (n.placeRules ctx) := by
  rw [SceneNode.placeRules]
  split
  · exact allRegular_cons (by decide)
      (allRegular_cons (isRegular_mk (by decide) (isWord_formatSize _ _).isPhrase)
        (allRegular_singleton (isRegular_mk (by decide) (isWord_formatSize _ _).isPhrase)))
  · exact allRegular_ite (by decide)

theorem allRegular_effectRules : AllRegular n.effectRules := by
  have hopacity : AllRegular n.opacityRules := by
    rw [SceneNode.opacityRules]
    split
    · exact allRegular_ite
        (allRegular_singleton (isRegular_mk (by decide) (isWord_formatNumber _).isPhrase))
    · exact allRegular_nil
  have hrotation : AllRegular n.rotationRules := by
    have hfront : IsPhrase "rotate(" := by decide
    have hvalue : IsPhrase ("rotate(" ++ formatNumber n.layer.rotation.floor ++ "deg)") :=
      (hfront.append (isPlainText_formatNumber _)).append (by decide)
    exact allRegular_ite (allRegular_singleton (isRegular_mk (by decide) hvalue))
  rw [SceneNode.effectRules]
  split
  · exact allRegular_nil
  · exact hopacity.append hrotation

theorem allRegular_sizeRules : AllRegular n.sizeRules := by
  rw [SceneNode.sizeRules]
  split
  · exact allRegular_nil
  · exact allRegular_cons (isRegular_mk (by decide) (isWord_formatPixelFloor _).isPhrase)
      (allRegular_singleton (isRegular_mk (by decide) (isWord_formatPixelFloor _).isPhrase))

theorem allRegular_radiusRules : AllRegular (n.radiusRules unit) := by
  rw [SceneNode.radiusRules]
  split
  next radius hradius =>
    obtain ⟨corners, -, hcss⟩ := Option.bind_eq_some_iff.mp hradius
    exact allRegular_singleton (isRegular_mk (by decide) (isPhrase_of_css? hcss))
  next => exact allRegular_nil

theorem allRegular_backgroundRules (fills : List Paint) :
    AllRegular (SceneNode.backgroundRules fills) := by
  rw [SceneNode.backgroundRules]
  split
  next p _ =>
    split
    · exact allRegular_nil
    · split
      next color hcolor =>
        refine allRegular_singleton (isRegular_mk ?_ (isPhrase_of_paint_css? hcolor))
        rw [SceneNode.backgroundProperty]
        split <;> decide
      next => exact allRegular_nil
  next => exact allRegular_nil

theorem allRegular_borderRules : AllRegular (n.borderRules unit) := by
  rw [SceneNode.borderRules]
  split
  next color hcolor =>
    obtain ⟨p, -, hcss⟩ := Option.bind_eq_some_iff.mp hcolor
    have hfront : IsPhrase (unit.formatSize n.strokeWeight ++ " solid ") :=
      (isWord_formatSize _ _).isPhrase.append (by decide)
    exact allRegular_singleton
      (isRegular_mk (by decide) (hfront.append (isPhrase_of_paint_css? hcss).text))
  next => exact allRegular_nil

theorem allRegular_imageRules : AllRegular n.imageRules := by
  have hfront : IsPhrase ("url(" ++ SceneNode.placeholderService ++ "/") := by decide
  refine allRegular_cons (isRegular_mk (by decide) ?_) (by decide)
  exact (((hfront.append (isPlainText_formatNumber _)).append (by decide)).append
    (isPlainText_formatNumber _)).append (by decide)

theorem allRegular_axisRules (sizing : Sizing) {name : String} (size : Float)
    (hname : name ∈ regularProperties) : AllRegular (axisRules sizing name size) :=
  allRegular_ite (allRegular_singleton (isRegular_mk hname (isWord_formatPixelFloor _).isPhrase))

theorem allRegular_flexRules (layer : Layer) (box : Container) {direction : String}
    {main cross : String × Float} (hdirection : IsPhrase direction) (hmain : main.1 ∈ regularProperties)
    (hcross : cross.1 ∈ regularProperties) :
    AllRegular (flexRules layer box unit direction main cross) := by
  have hfront : AllRegular [⟨"display", "flex"⟩, ⟨"flex-direction", direction⟩,
      ⟨"justify-content", box.mainAlign.css⟩, ⟨"align-items", box.crossAlign.css⟩] := by
    refine allRegular_cons (by decide) (allRegular_cons (isRegular_mk (by decide) hdirection)
      (allRegular_cons (isRegular_mk (by decide) ?_)
        (allRegular_singleton (isRegular_mk (by decide) ?_))))
    · cases box.mainAlign <;> decide
    · cases box.crossAlign <;> decide
  have hgrow : AllRegular
      (if layer.grow != 0 then [⟨"flex-grow", formatNumber layer.grow⟩] else []) :=
    allRegular_ite (allRegular_singleton (isRegular_mk (by decide) (isWord_formatNumber _).isPhrase))
  have hpadding : AllRegular (paddingRules box unit) := by
    rw [paddingRules]
    split
    next padding hpadding =>
      exact allRegular_singleton (isRegular_mk (by decide) (isPhrase_of_padding? hpadding))
    next => exact allRegular_nil
  have hgap : AllRegular (gapRules box unit) :=
    allRegular_ite (allRegular_singleton (isRegular_mk (by decide) (isWord_formatSize _ _).isPhrase))
  exact ((((hfront.append hgrow).append (allRegular_axisRules _ _ hmain)).append
    (allRegular_axisRules _ _ hcross)).append hpadding).append hgap

theorem allRegular_layoutRules (box : Container) : AllRegular (layoutRules n box unit) := by
  have hwidth : "width" ∈ regularProperties := by decide
  have hheight : "height" ∈ regularProperties := by decide
  rw [layoutRules]
  split
  · exact allRegular_sizeRules n
  · exact allRegular_flexRules unit n.layer box (by decide) hwidth hheight
  · exact allRegular_flexRules unit n.layer box (by decide) hheight hwidth

end Groups

/-! ## Texts -/

/-- The declaration of a text's font family, which is written as it is. -/
def TextRun.fontRules (run : TextRun) : List StyleProperty :=
  if run.fontName.family.isEmpty then [] else [⟨"font-family", run.fontName.family⟩]

/-- A text declares regularly, apart from its font family. -/
theorem of_mem_textRules {run : TextRun} {unit : LengthUnit} {p : StyleProperty}
    (h : p ∈ run.rules unit) : p.IsRegular ∨ p ∈ run.fontRules := by
  have hfront : AllRegular [⟨"text-align", run.align.css⟩, ⟨"vertical-align", run.verticalAlign.css⟩,
      ⟨"font-size", formatNumber run.fontSize ++ "px"⟩] := by
    refine allRegular_cons (isRegular_mk (by decide) ?_) (allRegular_cons (isRegular_mk (by decide) ?_)
      (allRegular_singleton (isRegular_mk (by decide) ?_)))
    · cases run.align <;> decide
    · cases run.verticalAlign <;> decide
    · exact (isWord_formatNumber _).isPhrase.append (by decide)
  have hspacing : AllRegular (run.letterSpacing.rules unit) := by
    cases run.letterSpacing with
    | pixels value =>
      exact allRegular_ite
        (allRegular_singleton (isRegular_mk (by decide) (isWord_formatSize _ _).isPhrase))
    | percent value =>
      have hvalue : IsPhrase (formatNumber value ++ "%") :=
        (isWord_formatNumber _).isPhrase.append (by decide)
      exact allRegular_ite (allRegular_singleton (isRegular_mk (by decide) hvalue))
  have hheight : AllRegular [⟨"line-height", run.lineHeight.css unit⟩] := by
    refine allRegular_singleton (isRegular_mk (by decide) ?_)
    cases run.lineHeight with
    | auto => exact (by decide : IsPhrase "auto")
    | pixels value => exact (isWord_formatSize _ _).isPhrase
    | percent value => exact (isWord_formatNumber _).isPhrase.append (by decide)
  have hdecoration : AllRegular run.decoration.rules := by
    cases run.decoration <;> decide
  have hcolor : AllRegular (textColorRules run.fills) := by
    rw [textColorRules]
    split
    next color hcolor =>
      obtain ⟨paint, -, hcss⟩ := Option.bind_eq_some_iff.mp hcolor
      exact allRegular_singleton (isRegular_mk (by decide) (isPhrase_of_paint_css? hcss))
    next => exact allRegular_nil
  rw [TextRun.rules] at h
  simp only [List.mem_append] at h
  rcases h with ((((h | h) | h) | h) | h) | h
  · exact .inl (hfront p h)
  · exact .inr h
  · exact .inl (hspacing p h)
  · exact .inl (hheight p h)
  · exact .inl (hdecoration p h)
  · exact .inl (hcolor p h)

/-! ## Nodes -/

namespace SceneNode

/-- Whether the font family of a text can be read back from its declaration: it is left out, or it is not
blank and has none of the signs that end a value. Other nodes have no font family. -/
def hasLegibleFont : SceneNode → Bool
  | text _ run =>
    run.fontName.family.isEmpty ||
      run.fontName.family.toList.any (fun c => !Text.isBlank c) &&
        run.fontName.family.toList.all Stylesheet.isValueChar
  | _ => true

/-- The font family that a node declares. -/
def fontRules : SceneNode → List StyleProperty
  | text _ run => run.fontRules
  | _ => []

theorem of_mem_kindRules {n : SceneNode} {unit : LengthUnit} {p : StyleProperty}
    (h : p ∈ n.kindRules unit) : p.IsRegular ∨ p ∈ n.fontRules := by
  cases n with
  | container role layer box children =>
    exact .inl ((((allRegular_radiusRules _ unit).append (allRegular_layoutRules _ unit box)).append
      (allRegular_backgroundRules box.fills)).append (allRegular_borderRules _ unit) p h)
  | group layer children => exact .inl (allRegular_sizeRules _ p h)
  | other kind layer children => exact .inl (allRegular_sizeRules _ p h)
  | text layer run => exact of_mem_textRules h
  | shape form layer geometry =>
    left
    cases form with
    | rectangle =>
      exact (((allRegular_radiusRules _ unit).append (allRegular_sizeRules _)).append
        (allRegular_backgroundRules geometry.fills)).append (allRegular_borderRules _ unit) p h
    | line => exact (allRegular_sizeRules _).append (allRegular_borderRules _ unit) p h
    | vector => cases h
    | ellipse => exact allRegular_sizeRules _ p h
    | polygon => exact allRegular_sizeRules _ p h
    | star => exact allRegular_sizeRules _ p h

/-- Every declaration of a node is regular, or is that of its font family. -/
theorem of_mem_declarations {n : SceneNode} {ctx : StyleContext} {p : StyleProperty}
    (h : p ∈ n.declarations ctx) : p.IsRegular ∨ p ∈ n.fontRules := by
  rw [declarations, List.mem_append] at h
  rcases h with hshared | hown
  · exact .inl ((allRegular_placeRules n ctx).append (allRegular_effectRules n) p hshared)
  · split at hown
    · exact .inl (allRegular_imageRules n p hown)
    · exact of_mem_kindRules hown

/-- The declarations of a node can be read back if its font family can. -/
theorem readable_of_mem_declarations {n : SceneNode} {ctx : StyleContext} {p : StyleProperty}
    (hfont : n.hasLegibleFont) (h : p ∈ n.declarations ctx) : Stylesheet.ReadableProperty p := by
  rcases of_mem_declarations h with hregular | hfamily
  · exact readable_of_isRegular hregular
  · cases n with
    | text layer run =>
      rw [fontRules, TextRun.fontRules] at hfamily
      split at hfamily
      next => cases hfamily
      next hsome =>
        rw [List.mem_singleton.mp hfamily]
        rw [hasLegibleFont, Bool.or_eq_true, Bool.and_eq_true] at hfont
        obtain ⟨hblank, hends⟩ := hfont.resolve_left hsome
        have hname : "font-family".toList.all fun c => c.isAlphanum || c == '-' := by decide
        simp only [List.all_eq_true, Bool.or_eq_true, beq_iff_eq] at hname
        refine ⟨by simp, hname, ?_, ?_⟩
        · simpa [Stylesheet.isValueChar] using hends
        · simpa using hblank
    | _ => cases hfamily

end SceneNode

end Handoff
