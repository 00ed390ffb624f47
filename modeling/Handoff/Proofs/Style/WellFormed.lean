/-
# Handoff.Proofs.Style.WellFormed — every style record is well formed

The writers of stylesheets and the translation into utility classes rely on the shape of a record and check
none of it: that a property is declared once and in its place, that properties which exclude each other do not
meet, and that no value can be taken for the end of its declaration. A record is put together from some twenty
groups of rules, most of them with conditions. What a group declares is a sublist of a list of its own, so the
order and the uniqueness of all properties are those of one fixed list for each kind of node; what excludes
what is settled inside single groups.
-/

import Handoff.Proofs.Style.Declared
import Handoff.Proofs.Style.Names
import Mathlib.Data.List.Nodup

namespace Handoff

open Text (IsPhrase)

namespace SceneNode

variable {n : SceneNode} {ctx : StyleContext} {name : String}

/-! ## The order of properties -/

/-- The properties that a node can declare behind those of its place, in order. -/
def ownNames (n : SceneNode) : List String :=
  ["opacity", "transform"] ++ if n.isImageLike then ["background-image", "background-size"] else n.kindNames

/-- The properties that a node can declare, in order. -/
def propertyNames (n : SceneNode) : List String :=
  ["position", "left", "top"] ++ n.ownNames

/-- What a node declares behind its place. -/
def ownRules (n : SceneNode) (unit : LengthUnit) : List StyleProperty :=
  n.effectRules ++ if n.isImageLike then n.imageRules else n.kindRules unit

theorem declarations_eq (n : SceneNode) (ctx : StyleContext) :
    n.declarations ctx = n.placeRules ctx ++ n.ownRules ctx.unit := by
  rw [declarations, ownRules, List.append_assoc]

theorem names_placeRules_sublist (n : SceneNode) (ctx : StyleContext) :
    (namesOf (n.placeRules ctx)).Sublist ["position", "left", "top"] := by
  unfold placeRules
  split
  · exact List.Sublist.refl _
  · split <;> simp [namesOf]

theorem names_ownRules_sublist (n : SceneNode) (unit : LengthUnit) :
    (namesOf (n.ownRules unit)).Sublist n.ownNames := by
  rw [ownRules, ownNames, namesOf_append]
  refine (names_effectRules_sublist n).append ?_
  split
  · exact (names_imageRules n).symm ▸ List.Sublist.refl _
  · exact names_kindRules_sublist n unit

theorem names_declarations_sublist (n : SceneNode) (ctx : StyleContext) :
    (namesOf (n.declarations ctx)).Sublist n.propertyNames := by
  rw [declarations_eq, namesOf_append]
  exact (names_placeRules_sublist n ctx).append (names_ownRules_sublist n ctx.unit)

/-- No property has two places. -/
theorem propertyNames_nodup (n : SceneNode) : n.propertyNames.Nodup := by
  have hkind : (["position", "left", "top"] ++ (["opacity", "transform"] ++ n.kindNames)).Nodup := by
    unfold kindNames
    split
    next box _ => cases box.layoutMode <;> decide
    all_goals decide
  rw [propertyNames, ownNames]
  split
  · decide
  · exact hkind

theorem names_declarations_nodup (n : SceneNode) (ctx : StyleContext) :
    (namesOf (n.declarations ctx)).Nodup :=
  n.propertyNames_nodup.sublist (names_declarations_sublist n ctx)

/-- A property is declared with one value. -/
theorem value_unique {p q : StyleProperty} (hp : p ∈ n.declarations ctx) (hq : q ∈ n.declarations ctx)
    (h : p.name = q.name) : p = q :=
  List.inj_on_of_nodup_map (names_declarations_nodup n ctx) hp hq h

/-! ## Properties that are always declared -/

/-- The properties that a node declares whatever its numbers and its paints are, in order. -/
def fixedNames (n : SceneNode) : List String :=
  if n.isImageLike then ["background-image", "background-size"]
  else
    match n with
    | container _ _ box _ =>
      if box.layoutMode = .none then [] else ["display", "flex-direction", "justify-content", "align-items"]
    | text _ _ => ["text-align", "vertical-align", "font-size", "line-height"]
    | _ => []

theorem sublist_names_flexRules (layer : Layer) (box : Container) (unit : LengthUnit) (direction : String)
    (main cross : String × Float) :
    ["display", "flex-direction", "justify-content", "align-items"].Sublist
      (namesOf (flexRules layer box unit direction main cross)) := by
  simp only [flexRules, namesOf_append, List.append_assoc]
  exact List.sublist_append_left _ _

theorem sublist_names_layoutRules {box : Container} (hbox : box.layoutMode ≠ .none) (unit : LengthUnit) :
    ["display", "flex-direction", "justify-content", "align-items"].Sublist
      (namesOf (layoutRules n box unit)) := by
  unfold layoutRules
  cases hmode : box.layoutMode with
  | none => exact absurd hmode hbox
  | horizontal => exact sublist_names_flexRules ..
  | vertical => exact sublist_names_flexRules ..

theorem sublist_names_textRules (run : TextRun) (unit : LengthUnit) :
    ["text-align", "vertical-align", "font-size", "line-height"].Sublist (namesOf (run.rules unit)) := by
  have hfront : ["text-align", "vertical-align", "font-size"].Sublist
      (namesOf [⟨"text-align", run.align.css⟩, ⟨"vertical-align", run.verticalAlign.css⟩,
        ⟨"font-size", formatNumber run.fontSize ++ "px"⟩]) := List.Sublist.refl _
  have hheight : ["line-height"].Sublist (namesOf [⟨"line-height", run.lineHeight.css unit⟩]) :=
    List.Sublist.refl _
  simp only [TextRun.rules, namesOf_append]
  exact ((((hfront.append (List.nil_sublist _)).append (List.nil_sublist _)).append hheight).append
    (List.nil_sublist _)).append (List.nil_sublist _)

theorem fixedNames_sublist (n : SceneNode) (ctx : StyleContext) :
    n.fixedNames.Sublist (namesOf (n.declarations ctx)) := by
  rw [declarations, namesOf_append]
  refine List.Sublist.trans ?_ (List.sublist_append_right _ _)
  unfold fixedNames
  split
  · exact List.Sublist.refl _
  · cases n with
    | container role layer box children =>
      show (if box.layoutMode = .none then [] else _).Sublist _
      split
      · exact List.nil_sublist _
      next hbox =>
        simp only [kindRules, namesOf_append, List.append_assoc]
        exact ((sublist_names_layoutRules hbox _).trans (List.sublist_append_left _ _)).trans
          (List.sublist_append_right _ _)
    | text layer run => exact sublist_names_textRules run ctx.unit
    | _ => exact List.nil_sublist _

/-! ## Properties that exclude each other -/

/-- A place is declared by no other rules. -/
theorem mem_declarations_iff_mem_placeRules {p : StyleProperty} (hname : p.name ∈ ["position", "left", "top"]) :
    p ∈ n.declarations ctx ↔ p ∈ n.placeRules ctx := by
  have hown : p ∉ n.ownRules ctx.unit := fun h =>
    (List.nodup_append.mp n.propertyNames_nodup).2.2 p.name hname p.name
      ((names_ownRules_sublist n ctx.unit).subset (List.mem_map_of_mem h)) rfl
  rw [declarations_eq, List.mem_append, or_iff_left hown]

theorem mem_names_iff_mem_names_placeRules (hname : name ∈ ["position", "left", "top"]) :
    name ∈ namesOf (n.declarations ctx) ↔ name ∈ namesOf (n.placeRules ctx) := by
  simp only [namesOf, List.mem_map]
  constructor
  · rintro ⟨p, hp, rfl⟩
    exact ⟨p, (mem_declarations_iff_mem_placeRules hname).mp hp, rfl⟩
  · rintro ⟨p, hp, rfl⟩
    exact ⟨p, (mem_declarations_iff_mem_placeRules hname).mpr hp, rfl⟩

theorem position_eq_or {p : StyleProperty} (hp : p ∈ n.declarations ctx) (hname : p.name = "position") :
    p.value = "absolute" ∨ p.value = "relative" := by
  rw [mem_declarations_iff_mem_placeRules (by simp [hname])] at hp
  unfold placeRules at hp
  split at hp
  · simp only [List.mem_cons, List.not_mem_nil, or_false] at hp
    rcases hp with rfl | rfl | rfl
    · exact .inl rfl
    · simp at hname
    · simp at hname
  · split at hp
    · rw [List.mem_singleton.mp hp]
      exact .inr rfl
    · cases hp

/-- Coordinates go with being taken out of flow. -/
theorem mem_names_place_iff (hname : name ∈ ["left", "top"]) :
    name ∈ namesOf (n.placeRules ctx) ↔ ⟨"position", "absolute"⟩ ∈ n.placeRules ctx := by
  unfold placeRules
  split
  · simp only [namesOf, List.map_cons, List.map_nil, List.mem_cons, true_or, iff_true]
    exact .inr (by simpa using hname)
  · have hne : name ≠ "position" := by
      rintro rfl
      simp at hname
    split <;> simp [namesOf, hne]

/-- What is not among the properties of a group of rules is not declared by it. -/
theorem not_mem_names {names : List String} {rules : List StyleProperty} (h : (namesOf rules).Sublist names)
    (hname : name ∉ names) : name ∉ namesOf rules :=
  fun hmem => hname (h.subset hmem)

/-- Neither a background nor a gap belongs to a place, an effect or an image. -/
theorem mem_names_kindRules (hname : name ∈ ["background", "background-color", "gap"])
    (h : name ∈ namesOf (n.declarations ctx)) : ¬n.isImageLike ∧ name ∈ namesOf (n.kindRules ctx.unit) := by
  have hothers : ∀ x ∈ ["background", "background-color", "gap"], x ∉ ["position", "left", "top"] ∧
      x ∉ ["opacity", "transform"] ∧ x ∉ ["background-image", "background-size"] := by
    decide
  obtain ⟨hplace, heffect, himage⟩ := hothers name hname
  rw [declarations_eq, namesOf_append, List.mem_append,
    or_iff_right (not_mem_names (names_placeRules_sublist n ctx) hplace), ownRules, namesOf_append,
    List.mem_append, or_iff_right (not_mem_names (names_effectRules_sublist n) heffect)] at h
  split at h
  · exact absurd h himage
  next hkind => exact ⟨hkind, h⟩

/-- Backgrounds come from the fills. -/
theorem mem_names_backgroundRules {unit : LengthUnit} (hname : name ∈ ["background", "background-color"])
    (h : name ∈ namesOf (n.kindRules unit)) : name ∈ namesOf (backgroundRules n.fills) := by
  have hout {names : List String} (hnames : ∀ x ∈ ["background", "background-color"], x ∉ names) :
      name ∉ names := hnames name hname
  have hsize := not_mem_names (names_sizeRules_sublist n) (hout (by decide))
  have hradius := not_mem_names (names_radiusRules_sublist n unit) (hout (by decide))
  have hborder := not_mem_names (names_borderRules_sublist n unit) (hout (by decide))
  cases n with
  | container role layer box children =>
    have hlayout : name ∉ namesOf (layoutRules (container role layer box children) box unit) := by
      refine not_mem_names (names_layoutRules_sublist _ box unit) (hout ?_)
      cases box.layoutMode <;> decide
    simp only [kindRules, namesOf_append, List.mem_append] at h
    exact (h.resolve_right hborder).resolve_left (not_or.mpr ⟨hradius, hlayout⟩)
  | group layer children => exact absurd h hsize
  | other kind layer children => exact absurd h hsize
  | text layer run =>
    exact absurd h (not_mem_names (names_textRules_sublist layer run unit) (hout (by simp [kindNames])))
  | shape form layer geometry =>
    cases form with
    | rectangle =>
      simp only [kindRules, namesOf_append, List.mem_append] at h
      exact (h.resolve_right hborder).resolve_left (not_or.mpr ⟨hradius, hsize⟩)
    | line =>
      simp only [kindRules, namesOf_append, List.mem_append] at h
      exact absurd h (not_or.mpr ⟨hsize, hborder⟩)
    | vector => cases h
    | ellipse => exact absurd h hsize
    | polygon => exact absurd h hsize
    | star => exact absurd h hsize

/-- A background is declared by one property. -/
theorem eq_of_mem_names_backgroundRules {fills : List Paint} {other : String}
    (h : name ∈ namesOf (backgroundRules fills)) (hother : other ∈ namesOf (backgroundRules fills)) :
    name = other := by
  unfold backgroundRules at h hother
  split at h
  next p _ =>
    split at h
    · cases h
    · cases hcolor : p.css? with
      | none =>
        rw [hcolor] at h
        cases h
      | some color => simp_all [namesOf]
  next => cases h

/-- A container that spreads its free space declares no gap. -/
theorem gap_not_mem_flexRules {layer : Layer} {box : Container} {unit : LengthUnit} {direction : String}
    {main cross : String × Float} (hspread : box.mainAlign = .spaceBetween) (hmain : "gap" ≠ main.1)
    (hcross : "gap" ≠ cross.1) : "gap" ∉ namesOf (flexRules layer box unit direction main cross) := by
  have haxis {sizing : Sizing} {axis : String} {size : Float} (hne : "gap" ≠ axis) :
      "gap" ∉ namesOf (axisRules sizing axis size) :=
    not_mem_names (names_axisRules_sublist sizing axis size) (by simpa using hne)
  have hpadding : "gap" ∉ namesOf (paddingRules box unit) := by
    unfold paddingRules
    split <;> simp [namesOf]
  have hgap : gapRules box unit = [] := by simp [gapRules, hspread]
  intro h
  rw [flexRules, hgap, List.append_nil] at h
  simp only [namesOf_append, List.mem_append] at h
  rcases h with (((h | h) | h) | h) | h
  · simp [namesOf] at h
  · split at h <;> simp [namesOf] at h
  · exact haxis hmain h
  · exact haxis hcross h
  · exact hpadding h

/-- Only a container with an automatic layout that leaves its free space alone declares a gap. -/
theorem exists_container_of_gap {unit : LengthUnit} (h : "gap" ∈ namesOf (n.kindRules unit)) :
    ∃ role layer box children, n = container role layer box children ∧ box.layoutMode ≠ .none ∧
      box.mainAlign ≠ .spaceBetween := by
  have hnames := (names_kindRules_sublist n unit).subset h
  have hwidth : "gap" ≠ "width" := by decide
  have hheight : "gap" ≠ "height" := by decide
  have hsize : "gap" ∉ namesOf n.sizeRules := not_mem_names (names_sizeRules_sublist n) (by decide)
  have hradius : "gap" ∉ namesOf (n.radiusRules unit) :=
    not_mem_names (names_radiusRules_sublist n unit) (by decide)
  have hborder : "gap" ∉ namesOf (n.borderRules unit) :=
    not_mem_names (names_borderRules_sublist n unit) (by decide)
  cases n with
  | container role layer box children =>
    have hbackground : "gap" ∉ namesOf (backgroundRules box.fills) :=
      not_mem_names (names_backgroundRules_sublist box.fills) (by decide)
    simp only [kindRules, namesOf_append, List.mem_append] at h
    replace h := ((h.resolve_right hborder).resolve_right hbackground).resolve_left hradius
    refine ⟨role, layer, box, children, rfl, fun hmode => ?_, fun hspread => ?_⟩
    · rw [layoutRules, hmode] at h
      exact hsize h
    · unfold layoutRules at h
      split at h
      · exact hsize h
      · exact gap_not_mem_flexRules hspread hwidth hheight h
      · exact gap_not_mem_flexRules hspread hheight hwidth h
  | group layer children => simp [kindNames] at hnames
  | other kind layer children => simp [kindNames] at hnames
  | text layer run => simp [kindNames] at hnames
  | shape form layer geometry => cases form <;> simp [kindNames] at hnames

/-- The main alignment of an automatic layout is declared as it is. -/
theorem mainAlign_mem_declarations {role : ContainerRole} {layer : Layer} {box : Container}
    {children : List SceneNode} (himage : ¬(container role layer box children).isImageLike)
    (hbox : box.layoutMode ≠ .none) :
    ⟨"justify-content", box.mainAlign.css⟩ ∈ (container role layer box children).declarations ctx := by
  have hlayout : ⟨"justify-content", box.mainAlign.css⟩ ∈
      layoutRules (container role layer box children) box ctx.unit := by
    unfold layoutRules
    cases hmode : box.layoutMode with
    | none => exact absurd hmode hbox
    | horizontal => simp [flexRules]
    | vertical => simp [flexRules]
  rw [declarations, if_neg himage, kindRules]
  simp [hlayout]

/-- A gap would add to the free space that is spread between children. -/
theorem gap_not_mem_of_spread (h : ⟨"justify-content", "space-between"⟩ ∈ n.declarations ctx) :
    "gap" ∉ namesOf (n.declarations ctx) := by
  intro hgap
  obtain ⟨himage, hgap⟩ := mem_names_kindRules (by simp) hgap
  obtain ⟨role, layer, box, children, rfl, hbox, hspread⟩ := exists_container_of_gap hgap
  have hvalue := congrArg StyleProperty.value
    (value_unique h (mainAlign_mem_declarations himage hbox) rfl)
  cases halign : box.mainAlign <;> simp_all [MainAlign.css]

/-! ## Whole records -/

theorem className_ne_empty (n : SceneNode) (ctx : StyleContext) (number : Nat) :
    n.className ctx number ≠ "" := by
  have hnumber (k : Nat) : toString k ≠ "" := (Text.isWord_toString k).ne
  unfold className
  split
  · simp [String.append_eq_empty_iff]
  · split
    · simp [String.append_eq_empty_iff]
    · exact fun h => hnumber _ (String.append_eq_empty_iff.mp h).2

theorem mem_names_image_iff (hname : name ∈ ["background-image", "background-size"]) :
    name ∈ namesOf (n.declarations ctx) ↔ n.isImageLike := by
  constructor
  · intro h
    by_contra himage
    have hkind : ∀ x ∈ ["background-image", "background-size"],
        x ∉ ["position", "left", "top"] ++ (["opacity", "transform"] ++ n.kindNames) := by
      unfold kindNames
      split
      next box _ => cases box.layoutMode <;> decide
      all_goals decide
    have hmem := (names_declarations_sublist n ctx).subset h
    rw [propertyNames, ownNames, if_neg himage] at hmem
    exact hkind name hname hmem
  · intro himage
    apply (fixedNames_sublist n ctx).subset
    unfold fixedNames
    rwa [if_pos himage]

/-- What holds of the style record of a node, whatever the node and wherever it stands. -/
structure WellFormed (n : SceneNode) (r : StyleRecord) : Prop where
  /-- The properties come in the order of their kind. -/
  order : (namesOf r.properties).Sublist n.propertyNames
  once : (namesOf r.properties).Nodup
  fixed : n.fixedNames.Sublist (namesOf r.properties)
  /-- Exactly images declare a picture. -/
  image : ∀ name ∈ ["background-image", "background-size"],
    name ∈ namesOf r.properties ↔ n.isImageLike
  position : ∀ p ∈ r.properties, p.name = "position" → p.value = "absolute" ∨ p.value = "relative"
  /-- Coordinates are declared exactly for what is taken out of flow. -/
  place : ∀ name ∈ ["left", "top"],
    name ∈ namesOf r.properties ↔ ⟨"position", "absolute"⟩ ∈ r.properties
  background : ¬("background" ∈ namesOf r.properties ∧ "background-color" ∈ namesOf r.properties)
  gap : ⟨"justify-content", "space-between"⟩ ∈ r.properties → "gap" ∉ namesOf r.properties
  /-- Every value is a phrase, except that a font family that is not empty is taken as it is. -/
  values : ∀ p ∈ r.properties, IsPhrase p.value ∨ p ∈ n.fontRules
  /-- Only the record without declarations has no name. -/
  named : r.className = "" ↔ r.properties = []

/-- **Every style record is well formed.** -/
theorem wellFormed_inferStyle (n : SceneNode) (ctx : StyleContext) (counter : Counter) :
    WellFormed n (n.inferStyle ctx counter).1 := by
  have hproperties : (n.inferStyle ctx counter).1.properties = n.declarations ctx := by
    rw [inferStyle_eq, StyleRecord.properties_ofProperties]
  constructor <;> simp only [hproperties]
  case order => exact names_declarations_sublist n ctx
  case once => exact names_declarations_nodup n ctx
  case fixed => exact fixedNames_sublist n ctx
  case image => exact fun name hname => mem_names_image_iff hname
  case position => exact fun p hp hname => position_eq_or hp hname
  case place =>
    intro name hname
    rw [mem_names_iff_mem_names_placeRules (List.mem_cons_of_mem _ hname), mem_names_place_iff hname,
      mem_declarations_iff_mem_placeRules (by simp)]
  case background =>
    rintro ⟨hbackground, hcolor⟩
    have hsame := eq_of_mem_names_backgroundRules
      (mem_names_backgroundRules (by simp) (mem_names_kindRules (by simp) hbackground).2)
      (mem_names_backgroundRules (by simp) (mem_names_kindRules (by simp) hcolor).2)
    simp at hsame
  case gap => exact gap_not_mem_of_spread
  case values => exact fun p hp => (of_mem_declarations hp).imp_left StyleProperty.IsRegular.value
  case named =>
    rw [inferStyle_eq]
    by_cases hnone : n.declarations ctx = []
    · simp [hnone, StyleRecord.ofProperties, StyleRecord.empty]
    · rw [StyleRecord.className_ofProperties _ hnone]
      exact iff_of_false (className_ne_empty n ctx _) hnone

end SceneNode

end Handoff
