/-
# Handoff.Proofs.Scene.Paints — a scene without its hidden paints

`maskPaints` leaves of a hidden paint only that there is one. So two scenes with one mask are equal except for
what is hidden: they have the same visible paints, and hidden ones in the same places. An image and a background
ask whether a paint is visible, and come to the same behind the mask. A border and the colour of a text do not
ask. Their paint, the ink of a node, is written even if it is hidden, as one declaration behind all others.
-/

import Handoff.Proofs.Scene.Shape

namespace Handoff

/-! ## Paints -/

namespace Paint

/-- The paint, of which nothing is left if it is hidden. -/
def masked (p : Paint) : Paint :=
  if p.visible then p else { kind := .unsupported, visible := false }

theorem masked_of_visible {p : Paint} (h : p.visible) : p.masked = p :=
  if_pos h

theorem masked_of_hidden {p : Paint} (h : ¬p.visible) : p.masked = { kind := .unsupported, visible := false } :=
  if_neg h

theorem showsImage_masked (p : Paint) : SceneNode.showsImage p.masked = SceneNode.showsImage p := by
  by_cases h : p.visible
  · rw [masked_of_visible h]
  · rw [masked_of_hidden h, SceneNode.showsImage, SceneNode.showsImage, Bool.eq_false_iff.mpr h, Bool.and_false,
      Bool.and_false]

end Paint

namespace SceneNode

/-! ## Scenes -/

mutual

/-- The scene with all paints masked. -/
def maskPaints : SceneNode → SceneNode
  | container role layer box children =>
    container role layer
      { box with fills := box.fills.map Paint.masked, strokes := box.strokes.map Paint.masked }
      (maskPaintsList children)
  | group layer children => group layer (maskPaintsList children)
  | shape form layer geometry =>
    shape form layer
      { geometry with fills := geometry.fills.map Paint.masked, strokes := geometry.strokes.map Paint.masked }
  | text layer run =>
    text layer { run with fills := run.fills.map Paint.masked, strokes := run.strokes.map Paint.masked }
  | other kind layer children => other kind layer (maskPaintsList children)

def maskPaintsList : List SceneNode → List SceneNode
  | [] => []
  | n :: ns => maskPaints n :: maskPaintsList ns

end

theorem maskPaintsList_eq_map (ns : List SceneNode) : maskPaintsList ns = ns.map maskPaints := by
  induction ns with
  | nil => rw [maskPaintsList, List.map_nil]
  | cons n ns ih => rw [maskPaintsList, List.map_cons, ih]

theorem layer_maskPaints (n : SceneNode) : n.maskPaints.layer = n.layer := by
  cases n <;> rfl

theorem children_maskPaints (n : SceneNode) : n.maskPaints.children = n.children.map maskPaints := by
  cases n with
  | container role layer box children => exact maskPaintsList_eq_map children
  | group layer children => exact maskPaintsList_eq_map children
  | shape form layer geometry => rfl
  | text layer run => rfl
  | other kind layer children => exact maskPaintsList_eq_map children

theorem fills_maskPaints (n : SceneNode) : n.maskPaints.fills = n.fills.map Paint.masked := by
  cases n <;> rfl

theorem strokes_maskPaints (n : SceneNode) : n.maskPaints.strokes = n.strokes.map Paint.masked := by
  cases n <;> rfl

theorem keepsShape_maskPaints : KeepsShape maskPaints where
  layer := layer_maskPaints
  children := children_maskPaints
  characters? n := by cases n <;> rfl
  isText n := by cases n <;> rfl
  isVector n := by
    cases n with
    | shape form layer geometry => cases form <;> rfl
    | _ => rfl
  isGroup n := by cases n <;> rfl
  placesByHand n := by cases n <;> rfl
  showsImage n := by
    rw [fills_maskPaints, List.any_map]
    exact congrArg n.fills.any (funext Paint.showsImage_masked)

theorem isInstance_maskPaints (n : SceneNode) : n.maskPaints.isInstance = n.isInstance := by
  cases n with
  | container role layer box children => cases role <;> rfl
  | _ => rfl

theorem isComponent_maskPaints (n : SceneNode) : n.maskPaints.isComponent = n.isComponent := by
  cases n with
  | container role layer box children => cases role <;> rfl
  | _ => rfl

theorem strokeWeight_maskPaints (n : SceneNode) : n.maskPaints.strokeWeight = n.strokeWeight := by
  cases n <;> rfl

/-! ## Ink -/

/-- The paint that a border or the colour of a text is made from. -/
def inkPaint? : SceneNode → Option Paint
  | container _ _ box _ => box.strokes.head?
  | shape .rectangle _ geometry => geometry.strokes.head?
  | shape .line _ geometry => geometry.strokes.head?
  | shape _ _ _ => none
  | text _ run => run.fills.head?
  | group _ _ => none
  | other _ _ _ => none

/-- The declaration of an ink: the colour of a text, or a border. -/
def inkProperty (n : SceneNode) (unit : LengthUnit) (color : String) : StyleProperty :=
  if n.isText then ⟨"color", color⟩
  else ⟨"border", unit.formatSize n.strokeWeight ++ " solid " ++ color⟩

def inkRules (n : SceneNode) (unit : LengthUnit) (ink : Option String) : List StyleProperty :=
  (ink.map (n.inkProperty unit)).toList

/-- The colour of an ink that is hidden; an image has no ink. -/
def hiddenInk? (n : SceneNode) : Option String :=
  if n.isImageLike then none else (n.inkPaint?.filter fun p => !p.visible).bind Paint.css?

/-- The declaration of an ink that is hidden. -/
def hiddenInkRules (n : SceneNode) (unit : LengthUnit) : List StyleProperty :=
  n.inkRules unit n.hiddenInk?

theorem borderRules_eq {n : SceneNode} (h : n.isText = false) (unit : LengthUnit) :
    n.borderRules unit = n.inkRules unit (n.strokes.head?.bind Paint.css?) := by
  rw [borderRules]
  cases n.strokes.head?.bind Paint.css? with
  | none => rfl
  | some color => rw [inkRules, Option.map_some, inkProperty, h]; rfl

theorem textColorRules_eq (layer : Layer) (run : TextRun) (unit : LengthUnit) :
    textColorRules run.fills = (text layer run).inkRules unit (run.fills.head?.bind Paint.css?) := by
  rw [textColorRules]
  cases run.fills.head?.bind Paint.css? with
  | none => rfl
  | some color => rfl

theorem inkRules_maskPaints (n : SceneNode) (unit : LengthUnit) : n.maskPaints.inkRules unit = n.inkRules unit := by
  have hproperty : n.maskPaints.inkProperty unit = n.inkProperty unit := by
    funext color
    rw [inkProperty, keepsShape_maskPaints.isText, strokeWeight_maskPaints, inkProperty]
  funext ink
  rw [inkRules, hproperty, inkRules]

/-- Different inks are written differently. -/
theorem inkRules_injective (n : SceneNode) (unit : LengthUnit) : Function.Injective (n.inkRules unit) := by
  have hproperty : Function.Injective (n.inkProperty unit) := by
    intro color color' h
    rw [inkProperty, inkProperty] at h
    split at h
    · exact congrArg StyleProperty.value h
    · exact (String.append_right_inj _).mp (congrArg StyleProperty.value h)
  intro ink ink' h
  have hhead := congrArg List.head? h
  rw [inkRules, inkRules, Option.head?_toList, Option.head?_toList] at hhead
  exact Option.map_injective hproperty hhead

/-- An ink is written from the masked paint, or behind it if it is hidden. -/
theorem inkRules_bind (n : SceneNode) (unit : LengthUnit) (paint : Option Paint) :
    n.inkRules unit (paint.bind Paint.css?) =
      n.inkRules unit ((paint.map Paint.masked).bind Paint.css?) ++
        n.inkRules unit ((paint.filter fun p => !p.visible).bind Paint.css?) := by
  cases paint with
  | none => rfl
  | some p =>
    by_cases h : p.visible
    · have hnone : (some p).filter (fun p => !p.visible) = none := by simp [h]
      rw [hnone, Option.map_some, Paint.masked_of_visible h]
      exact (List.append_nil _).symm
    · have hsome : (some p).filter (fun p => !p.visible) = some p := by simp [h]
      rw [hsome, Option.map_some, Paint.masked_of_hidden h]
      rfl

theorem backgroundRules_masked (fills : List Paint) :
    backgroundRules (fills.map Paint.masked) = backgroundRules fills := by
  rw [backgroundRules, List.head?_map, backgroundRules]
  cases fills.head? with
  | none => rfl
  | some p =>
    by_cases h : p.visible
    · rw [Option.map_some, Paint.masked_of_visible h]
    · rw [Option.map_some, Paint.masked_of_hidden h]
      simp [h]

theorem borderRules_maskPaints {n : SceneNode} (h : n.isText = false) (unit : LengthUnit) :
    n.borderRules unit = n.maskPaints.borderRules unit ++
      n.inkRules unit ((n.strokes.head?.filter fun p => !p.visible).bind Paint.css?) := by
  have hmask : n.maskPaints.isText = false := (keepsShape_maskPaints.isText n).trans h
  rw [borderRules_eq h, borderRules_eq hmask, inkRules_maskPaints, strokes_maskPaints, List.head?_map,
    inkRules_bind]

theorem textColorRules_masked (layer : Layer) (run : TextRun) (unit : LengthUnit) :
    textColorRules run.fills = textColorRules (run.fills.map Paint.masked) ++
      (text layer run).inkRules unit ((run.fills.head?.filter fun p => !p.visible).bind Paint.css?) := by
  rw [textColorRules_eq layer run unit, inkRules_bind, ← List.head?_map]
  exact congrArg (· ++ _) (textColorRules_eq layer { run with fills := run.fills.map Paint.masked } unit).symm

/-- What the kind of a node calls for is read behind the mask, but for a hidden ink. -/
theorem kindRules_maskPaints (n : SceneNode) (unit : LengthUnit) :
    n.kindRules unit = n.maskPaints.kindRules unit ++
      n.inkRules unit ((n.inkPaint?.filter fun p => !p.visible).bind Paint.css?) := by
  -- An ink is written last, behind all that is read from masked paints or from none.
  cases n with
  | container role layer box children =>
    rw [kindRules, borderRules_maskPaints rfl, ← backgroundRules_masked, ← List.append_assoc]
    rfl
  | group layer children => exact (List.append_nil _).symm
  | other kind layer children => exact (List.append_nil _).symm
  | text layer run =>
    rw [kindRules, TextRun.rules, textColorRules_masked layer run unit, ← List.append_assoc]
    rfl
  | shape form layer geometry =>
    cases form with
    | rectangle =>
      rw [kindRules, borderRules_maskPaints rfl, ← backgroundRules_masked, ← List.append_assoc]
      rfl
    | line =>
      rw [kindRules, borderRules_maskPaints rfl, ← List.append_assoc]
      rfl
    | ellipse => exact (List.append_nil _).symm
    | polygon => exact (List.append_nil _).symm
    | star => exact (List.append_nil _).symm
    | vector => exact (List.append_nil _).symm

/-- **Only a hidden ink shows.** Behind the mask a node declares the same, but for its hidden ink. -/
theorem declarations_maskPaints (n : SceneNode) (ctx : StyleContext) :
    n.declarations ctx = n.maskPaints.declarations (ctx.mapParent maskPaints) ++ n.hiddenInkRules ctx.unit := by
  rw [keepsShape_maskPaints.declarations_eq_append (n.kindRules_maskPaints ctx.unit), hiddenInkRules, hiddenInk?]
  split <;> rfl

/-- Nodes with one mask have the same declaration of a hidden ink exactly if they have the same hidden ink. -/
theorem hiddenInkRules_eq_iff {m n : SceneNode} (h : m.maskPaints = n.maskPaints) (unit : LengthUnit) :
    m.hiddenInkRules unit = n.hiddenInkRules unit ↔ m.hiddenInk? = n.hiddenInk? := by
  rw [hiddenInkRules, hiddenInkRules, ← inkRules_maskPaints m, h, inkRules_maskPaints]
  exact (inkRules_injective n unit).eq_iff

end SceneNode

end Handoff
