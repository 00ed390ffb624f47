/-
# Handoff.Proofs.Scene.Attributes — paints and attributes are read back

Everything that a node carries besides its children is written field by field and read back field by
field. The one thing that can go wrong is a number without a JSON text, so each type comes with the list
of its numbers, and each statement asks that they are finite. Layers, containers, shapes and texts are
not objects of their own: their members are mixed into those of the node, and the statements about them
ask only that an object `Holds` these members.
-/

import Handoff.Proofs.Json.Codec
import Handoff.Scene.Decoder
import Handoff.Scene.Encoder

namespace Handoff

open Json

/-! ## Names -/

theorem Positioning.names_all : NamesAll Positioning.names :=
  ⟨by decide, by intro a; cases a <;> decide⟩

theorem LayoutMode.names_all : NamesAll LayoutMode.names :=
  ⟨by decide, by intro a; cases a <;> decide⟩

theorem MainAlign.names_all : NamesAll MainAlign.names :=
  ⟨by decide, by intro a; cases a <;> decide⟩

theorem CrossAlign.names_all : NamesAll CrossAlign.names :=
  ⟨by decide, by intro a; cases a <;> decide⟩

theorem Sizing.names_all : NamesAll Sizing.names :=
  ⟨by decide, by intro a; cases a <;> decide⟩

theorem TextAlign.names_all : NamesAll TextAlign.names :=
  ⟨by decide, by intro a; cases a <;> decide⟩

theorem VerticalAlign.names_all : NamesAll VerticalAlign.names :=
  ⟨by decide, by intro a; cases a <;> decide⟩

theorem TextDecoration.names_all : NamesAll TextDecoration.names :=
  ⟨by decide, by intro a; cases a <;> decide⟩

theorem ContainerRole.names_all : NamesAll ContainerRole.names :=
  ⟨by decide, by intro a; cases a <;> decide⟩

theorem ShapeForm.names_all : NamesAll ShapeForm.names :=
  ⟨by decide, by intro a; cases a <;> decide⟩

/-! ## Numbers -/

/-- Numbers that all have a JSON text. -/
def AllFinite (numbers : List Float) : Prop :=
  ∀ x ∈ numbers, x.isFinite

instance (numbers : List Float) : Decidable (AllFinite numbers) :=
  inferInstanceAs (Decidable (∀ x ∈ numbers, _))

@[simp]
theorem allFinite_cons {x : Float} {numbers : List Float} :
    AllFinite (x :: numbers) ↔ x.isFinite ∧ AllFinite numbers :=
  List.forall_mem_cons

@[simp]
theorem allFinite_append {numbers more : List Float} :
    AllFinite (numbers ++ more) ↔ AllFinite numbers ∧ AllFinite more :=
  List.forall_mem_append

/-- The numbers of a part are among those of the whole. -/
theorem AllFinite.of_mem {items : List α} {numbers : α → List Float} (h : AllFinite (items.flatMap numbers))
    {a : α} (ha : a ∈ items) : AllFinite (numbers a) :=
  fun x hx => h x (List.mem_flatMap.mpr ⟨a, ha, hx⟩)

def Rgb.numbers (c : Rgb) : List Float :=
  [c.r, c.g, c.b]

def Rgba.numbers (c : Rgba) : List Float :=
  [c.r, c.g, c.b, c.a]

def ColorStop.numbers (s : ColorStop) : List Float :=
  s.position :: s.color.numbers

def Transform.numbers (t : Transform) : List Float :=
  [t.a, t.c, t.tx, t.b, t.d, t.ty]

def PaintKind.numbers : PaintKind → List Float
  | .solid color => color.numbers
  | .linearGradient stops transform => stops.flatMap ColorStop.numbers ++ transform.numbers
  | .image _ _ => []
  | .unsupported => []

def Paint.numbers (p : Paint) : List Float :=
  p.kind.numbers ++ p.opacity.toList

def Corners.numbers (c : Corners) : List Float :=
  [c.topLeft, c.topRight, c.bottomRight, c.bottomLeft]

def CornerRadius.numbers : CornerRadius → List Float
  | .uniform radius => [radius]
  | .perCorner corners => corners.numbers

def LetterSpacing.numbers : LetterSpacing → List Float
  | .pixels value => [value]
  | .percent value => [value]

def LineHeight.numbers : LineHeight → List Float
  | .auto => []
  | .pixels value => [value]
  | .percent value => [value]

def Layer.numbers (l : Layer) : List Float :=
  [l.x, l.y, l.width, l.height, l.rotation, l.grow] ++ l.opacity.toList

def Sides.numbers (s : Sides) : List Float :=
  [s.top, s.right, s.bottom, s.left]

def Container.numbers (c : Container) : List Float :=
  c.fills.flatMap Paint.numbers ++ c.strokes.flatMap Paint.numbers ++ c.strokeWeight ::
    c.cornerRadius.numbers ++ c.padding.numbers ++ [c.itemSpacing]

def Shape.numbers (s : Shape) : List Float :=
  s.fills.flatMap Paint.numbers ++ s.strokes.flatMap Paint.numbers ++ s.strokeWeight ::
    s.cornerRadius.numbers

def TextRun.numbers (t : TextRun) : List Float :=
  t.fontSize :: t.letterSpacing.numbers ++ t.lineHeight.numbers ++ t.fills.flatMap Paint.numbers ++
    t.strokes.flatMap Paint.numbers

/-! ## Paints -/

theorem Rgb.decode_encode {c : Rgb} (h : AllFinite c.numbers) : decode c.encode = .ok c := by
  simp only [numbers, allFinite_cons] at h
  simp [decode, encode, asRecord, Record.required, Record.field?, member?, asFloat_ofFloat, h]

theorem Rgba.decode_encode {c : Rgba} (h : AllFinite c.numbers) : decode c.encode = .ok c := by
  simp only [numbers, allFinite_cons] at h
  simp [decode, encode, asRecord, Record.required, Record.field?, member?, asFloat_ofFloat, h]

theorem ColorStop.decode_encode {s : ColorStop} (h : AllFinite s.numbers) :
    decode s.encode = .ok s := by
  rw [numbers, allFinite_cons] at h
  simp [decode, encode, asRecord, Record.required, Record.field?, member?, asFloat_ofFloat h.1,
    Rgba.decode_encode h.2]

theorem Transform.decode_encode {t : Transform} (h : AllFinite t.numbers) :
    decode t.encode = .ok t := by
  simp only [numbers, allFinite_cons] at h
  simp [decode, encode, asFloat_ofFloat, h]

/-- An opacity that is set is not written as null. -/
theorem asOption_opacity {opacity : Option Float} (h : AllFinite opacity.toList) :
    asOption asFloat (.ofOption .ofFloat opacity) = .ok opacity := by
  apply asOption_ofOption
  rintro x rfl
  have hx : x.isFinite := h x (by simp)
  exact ⟨asFloat_ofFloat hx, by simp [ofFloat, hx]⟩

theorem asOption_text (o : Option String) : asOption asText (.ofOption .text o) = .ok o :=
  asOption_ofOption fun _ _ => ⟨rfl, Json.noConfusion⟩

/-- The kind of a paint is read from any object that holds its members. -/
theorem PaintKind.decode_members {k : PaintKind} (h : AllFinite k.numbers)
    {members : List (String × Json)} (hold : Holds members k.members) :
    ∃ tag, (Record.named members).required 0 "type" PaintTag.decode = .ok tag ∧
      tag.decodeKind (.named members) = .ok k := by
  cases k with
  | solid color =>
    simp only [PaintKind.members, holds_cons] at hold
    obtain ⟨htag, hcolor, -⟩ := hold
    refine ⟨.solid, required_of_member htag _ _, ?_⟩
    rw [PaintTag.decodeKind, required_of_member hcolor, Rgb.decode_encode h]
    rfl
  | linearGradient stops transform =>
    simp only [PaintKind.members, holds_cons] at hold
    obtain ⟨htag, hstops, htransform, -⟩ := hold
    rw [numbers, allFinite_append] at h
    have hlist := asList_map fun s hs => ColorStop.decode_encode (h.1.of_mem hs)
    refine ⟨.linearGradient, required_of_member htag _ _, ?_⟩
    rw [PaintTag.decodeKind, required_of_member hstops, hlist, required_of_member htransform,
      Transform.decode_encode h.2]
    rfl
  | image hash scaleMode =>
    simp only [PaintKind.members, holds_cons] at hold
    obtain ⟨htag, hhash, hmode, -⟩ := hold
    refine ⟨.image, required_of_member htag _ _, ?_⟩
    rw [PaintTag.decodeKind, optional_of_member hhash, asOption_text, optional_of_member hmode,
      asOption_text]
    rfl
  | unsupported =>
    simp only [PaintKind.members, holds_cons] at hold
    exact ⟨.unsupported, required_of_member hold.1 _ _, rfl⟩

theorem Paint.decode_encode {p : Paint} (h : AllFinite p.numbers) : decode p.encode = .ok p := by
  obtain ⟨kind, visible, opacity⟩ := p
  rw [numbers, allFinite_append] at h
  have hdistinct : ((kind.members ++ [("visible", Json.bool visible),
      ("opacity", .ofOption .ofFloat opacity)]).map (·.1)).Nodup := by
    cases kind <;> simp [PaintKind.members]
  -- No kind has a member that is called like one of the two that all paints share.
  have hshared := holds_of_subset hdistinct (List.subset_append_right _ _)
  simp only [holds_cons] at hshared
  obtain ⟨hvisible, hopacity, -⟩ := hshared
  obtain ⟨tag, htag, hkind⟩ :=
    PaintKind.decode_members h.1 (holds_of_subset hdistinct (List.subset_append_left _ _))
  rw [encode, decode]
  simp only [optional_of_member hvisible, optional_of_member hopacity, asBool, asOption_opacity h.2,
    ok_bind, htag, hkind, decoded_pure]

/-! ## Attributes -/

theorem asList_paints {paints : List Paint} (h : AllFinite (paints.flatMap Paint.numbers)) :
    asList Paint.decode (.array (paints.map Paint.encode)) = .ok paints :=
  asList_map fun _ hp => Paint.decode_encode (h.of_mem hp)

theorem Corners.decode_encode {c : Corners} (h : AllFinite c.numbers) : decode c.encode = .ok c := by
  simp only [numbers, allFinite_cons] at h
  simp [decode, encode, asRecord, Record.optional, Record.field?, member?, asFloat_ofFloat, h]

theorem CornerRadius.decode_encode {r : CornerRadius} (h : AllFinite r.numbers) :
    decode r.encode = .ok r := by
  cases r with
  | uniform radius =>
    simp only [numbers, allFinite_cons] at h
    simp [encode, ofFloat, h, decode, Number.toFloat]
  | perCorner corners =>
    -- An object is no number, so the reader takes the second alternative.
    have hcorners := Corners.decode_encode h
    rw [encode, Corners.encode, decode, ← Corners.encode, hcorners]
    · rfl
    · simp

theorem FontName.decode_encode (f : FontName) : decode f.encode = .ok f := by
  simp [decode, encode, asRecord, Record.optional, Record.field?, member?, asText]

/-- A number with a unit is read by its unit. -/
theorem asTagged_unit (unit : String) (value : Json) :
    asTagged "unit" (.object [("unit", .text unit), ("value", value)]) =
      .ok (unit, .named [("unit", .text unit), ("value", value)]) := by
  simp [asTagged, member?, asText]

theorem required_value {x : Float} (h : x.isFinite) (unit : String) :
    (Record.named [("unit", .text unit), ("value", .ofFloat x)]).required 0 "value" asFloat = .ok x := by
  simp [Record.required, Record.field?, member?, asFloat_ofFloat h]

theorem LetterSpacing.decode_encode {s : LetterSpacing} (h : AllFinite s.numbers) :
    decode s.encode = .ok s := by
  cases s with
  | pixels value =>
    simp only [numbers, allFinite_cons] at h
    simp [decode, encode, asTagged_unit, Record.within, required_value h.1]
  | percent value =>
    simp only [numbers, allFinite_cons] at h
    simp [decode, encode, asTagged_unit, Record.within, required_value h.1]

theorem LineHeight.decode_encode {l : LineHeight} (h : AllFinite l.numbers) :
    decode l.encode = .ok l := by
  cases l with
  | auto => simp [decode, encode, asTagged, member?, asText, Record.within]
  | pixels value =>
    simp only [numbers, allFinite_cons] at h
    simp [decode, encode, asTagged_unit, Record.within, required_value h.1]
  | percent value =>
    simp only [numbers, allFinite_cons] at h
    simp [decode, encode, asTagged_unit, Record.within, required_value h.1]

/-! ## Members of nodes -/

variable {members : List (String × Json)}

theorem Layer.decode_members {l : Layer} (h : AllFinite l.numbers) (hold : Holds members l.members) :
    decode members = .ok l := by
  simp only [numbers, allFinite_append, allFinite_cons] at h
  simp only [Layer.members, holds_cons] at hold
  simp [decode, Record.optional, Record.required, Record.field?, hold, asText, asBool,
    asFloat_ofFloat, asOption_opacity, asName_ofName Positioning.names_all, h]

theorem Container.decode_members {c : Container} (h : AllFinite c.numbers)
    (hold : Holds members c.members) : decode members = .ok c := by
  simp only [numbers, Sides.numbers, allFinite_append, allFinite_cons] at h
  simp only [Container.members, paintsMember, holds_cons] at hold
  simp [decode, update, Record.optional, Record.field?, hold, asList_paints, asFloat_ofFloat,
    CornerRadius.decode_encode, asName_ofName LayoutMode.names_all, asName_ofName MainAlign.names_all,
    asName_ofName CrossAlign.names_all, asName_ofName Sizing.names_all, h]

theorem Shape.decode_members {s : Shape} (h : AllFinite s.numbers) (hold : Holds members s.members) :
    decode members = .ok s := by
  simp only [numbers, allFinite_append, allFinite_cons] at h
  simp only [Shape.members, paintsMember, holds_cons] at hold
  simp [decode, Record.optional, Record.field?, hold, asList_paints, asFloat_ofFloat,
    CornerRadius.decode_encode, h]

theorem TextRun.decode_members {t : TextRun} (h : AllFinite t.numbers)
    (hold : Holds members t.members) : decode members = .ok t := by
  simp only [numbers, allFinite_append, allFinite_cons] at h
  simp only [TextRun.members, paintsMember, holds_cons] at hold
  simp [decode, update, Record.optional, Record.field?, hold, asText, asList_paints, asFloat_ofFloat,
    FontName.decode_encode, LetterSpacing.decode_encode, LineHeight.decode_encode,
    asName_ofName TextAlign.names_all, asName_ofName VerticalAlign.names_all,
    asName_ofName TextDecoration.names_all, h]

end Handoff
