/-
# Handoff.Proofs.Tag.Paints — when hidden paints make a difference

Two scenes with one mask differ in their hidden paints only, so their trees are compared with that of the masked
scene. Nothing but a style can differ, and a style only in its last declaration: the ink of the node, a border
or the colour of a text, which is written even if its paint is hidden. So hidden paints style nothing exactly
where both scenes have the same hidden inks, and always where none of the inks is hidden.
-/

import Handoff.Proofs.Scene.Paints
import Handoff.Proofs.Tag.Source

namespace Handoff

open SceneNode (maskPaints keepsShape_maskPaints)

theorem keepsShown_maskPaints : KeepsShown maskPaints :=
  keepsShape_maskPaints.keepsShown

namespace Tag

/-! ## Everything but styles -/

/-- The head without its style and without the node that it stands for. -/
def Head.unstyled (h : Head) : Head :=
  { h with style := .empty, source := default }

theorem Head.unstyled_style (h : Head) (style : StyleRecord) : Head.unstyled { h with style } = h.unstyled :=
  rfl

theorem Head.unstyled_source (h : Head) (source : SceneNode) : Head.unstyled { h with source } = h.unstyled :=
  rfl

/-- Building a scene, compared with building it behind the mask: styles are left out. -/
def paintComparison (detection : Detection) : Comparison where
  node := maskPaints
  context := StyleContext.mapParent maskPaints
  detection := detection
  detection' := detection
  view := Head.unstyled
  view' := Head.unstyled
  visible := keepsShown_maskPaints.visible
  isText := keepsShown_maskPaints.isText
  children := keepsShown_maskPaints.children
  contextBelow _ _ := rfl
  nextSibling _ := rfl

theorem headOf_maskPaints (n : SceneNode) (detection : Detection) (isRoot : Bool) :
    headOf n.maskPaints detection isRoot = { headOf n detection isRoot with source := n.maskPaints } := by
  simp only [headOf, keepsShape_maskPaints.isImageLike, keepsShape_maskPaints.name,
    keepsShape_maskPaints.characters?, SceneNode.isInstance_maskPaints, SceneNode.isComponent_maskPaints]

theorem paintComparison_agreesAt (detection : Detection) (n : SceneNode) :
    (paintComparison detection).AgreesAt n where
  isImageLike := keepsShape_maskPaints.isImageLike n
  head ctx counter := by
    have hisRoot : (ctx.mapParent maskPaints).parent.isNone = ctx.parent.isNone := Option.isNone_map
    show Head.unstyled (builtHead detection (ctx.mapParent maskPaints) n.maskPaints counter) =
      Head.unstyled (builtHead detection ctx n counter)
    rw [builtHead, builtHead, hisRoot, headOf_maskPaints, Head.unstyled_style, Head.unstyled_style,
      Head.unstyled_source]

variable {first second root : SceneNode} {unit : LengthUnit} {detection : Detection} {start stop : Counter}
  {t t' u u' : Tag} {p : List Nat}

/-- Behind the mask a scene has the same tree but for styles, and leaves the counter at the same number. -/
theorem build_maskPaints (root : SceneNode) (unit : LengthUnit) (detection : Detection) (start : Counter) :
    (build root.maskPaints unit detection start).1.map (mapHead Head.unstyled) =
        (build root unit detection start).1.map (mapHead Head.unstyled) ∧
      (build root.maskPaints unit detection start).2 = (build root unit detection start).2 :=
  (paintComparison detection).buildIn_eq (paintComparison_agreesAt detection) { unit } root start

/-! ## Styles -/

/-- The style of the tag at a position is read behind the mask, but for the hidden ink of its node. -/
theorem style_of_build_at (h : build root unit detection start = (some t, stop)) (hp : t.at? p = some u) :
    ∃ n, root.maskPaints.shownAt? p = some n ∧ u.head.source.maskPaints = n ∧
      u.head.style = .ofProperties
        (n.className (contextAt { unit } root.maskPaints p) (start.skip (numberedIn (t.before p))).peek)
        (n.declarations (contextAt { unit } root.maskPaints p) ++ u.head.source.hiddenInkRules unit) := by
  obtain ⟨n, c, hn, hbuilt⟩ := of_buildIn_at h hp
  obtain ⟨-, hhead, -⟩ := of_buildIn hbuilt
  have hsource : u.head.source = n := source_of_buildIn hbuilt
  have hcontext : contextAt { unit } root.maskPaints p = (contextAt { unit } root p).mapParent maskPaints :=
    keepsShown_maskPaints.contextAt { unit } root p
  have hunit : (contextAt { unit } root p).unit = unit := by
    rw [contextAt]
    split <;> rfl
  refine ⟨n.maskPaints, ?_, by rw [hsource], ?_⟩
  · rw [keepsShown_maskPaints.shownAt?, hn, Option.map_some]
  · rw [hsource, hhead, hcontext]
    show (n.inferStyle _ _).1 = _
    rw [SceneNode.inferStyle_eq, n.declarations_maskPaints, hunit,
      className_mapParent keepsShown_maskPaints (keepsShape_maskPaints.isImageLike n)]

/-- In trees of one shape the same numbers are taken before a position. -/
theorem numberedIn_before_eq (h : t.mapHead Head.unstyled = t'.mapHead Head.unstyled) (p : List Nat) :
    numberedIn (t.before p) = numberedIn (t'.before p) := by
  have hnumbered : ∀ h : Head, h.unstyled.isNumbered = h.isNumbered := fun _ => rfl
  rw [← numberedIn_mapHead hnumbered (t.before p), ← before_mapHead, h, before_mapHead,
    numberedIn_mapHead hnumbered]

/-! ## Two scenes with one mask -/

/-- Scenes with one mask have trees of one shape, and leave the counter at one number. -/
theorem unstyled_build_eq (h : first.maskPaints = second.maskPaints) (unit : LengthUnit) (detection : Detection)
    (start : Counter) :
    (build first unit detection start).1.map (mapHead Head.unstyled) =
        (build second unit detection start).1.map (mapHead Head.unstyled) ∧
      (build first unit detection start).2 = (build second unit detection start).2 := by
  obtain ⟨htree, hcounter⟩ := build_maskPaints first unit detection start
  obtain ⟨htree', hcounter'⟩ := build_maskPaints second unit detection start
  rw [← htree, ← hcounter, h]
  exact ⟨htree', hcounter'⟩

section Pair

variable {stop' : Counter} (hmask : first.maskPaints = second.maskPaints)
  (hbuilt : build first unit detection start = (some t, stop))
  (hbuilt' : build second unit detection start = (some t', stop'))

include hmask hbuilt hbuilt'

theorem mapHead_unstyled_eq : t.mapHead Head.unstyled = t'.mapHead Head.unstyled := by
  have hshape := (unstyled_build_eq hmask unit detection start).1
  rw [hbuilt, hbuilt', Option.map_some, Option.map_some] at hshape
  exact Option.some.inj hshape

/-- The styles at a position have one name and begin with the same declarations. -/
theorem exists_style_eq_append (hp : t.at? p = some u) (hp' : t'.at? p = some u') :
    ∃ className shared,
      u.head.style = .ofProperties className (shared ++ u.head.source.hiddenInkRules unit) ∧
        u'.head.style = .ofProperties className (shared ++ u'.head.source.hiddenInkRules unit) := by
  obtain ⟨n, hn, -, hstyle⟩ := style_of_build_at hbuilt hp
  obtain ⟨n', hn', -, hstyle'⟩ := style_of_build_at hbuilt' hp'
  have hbefore := numberedIn_before_eq (mapHead_unstyled_eq hmask hbuilt hbuilt') p
  rw [← hmask, hn, Option.some.injEq] at hn'
  rw [← hmask, ← hn', ← hbefore] at hstyle'
  exact ⟨_, _, hstyle, hstyle'⟩

theorem style_eq_iff (hp : t.at? p = some u) (hp' : t'.at? p = some u') :
    u.head.style = u'.head.style ↔ u.head.source.hiddenInk? = u'.head.source.hiddenInk? := by
  obtain ⟨n, hn, hsource, -⟩ := style_of_build_at hbuilt hp
  obtain ⟨n', hn', hsource', -⟩ := style_of_build_at hbuilt' hp'
  obtain ⟨className, shared, hstyle, hstyle'⟩ := exists_style_eq_append hmask hbuilt hbuilt' hp hp'
  rw [← hmask, hn, Option.some.injEq] at hn'
  have hsources : u.head.source.maskPaints = u'.head.source.maskPaints := by
    rw [hsource, hsource', hn']
  rw [← SceneNode.hiddenInkRules_eq_iff hsources unit, hstyle, hstyle']
  constructor
  · intro h
    have hproperties := congrArg StyleRecord.properties h
    rw [StyleRecord.properties_ofProperties, StyleRecord.properties_ofProperties] at hproperties
    exact List.append_cancel_left hproperties
  · intro h
    rw [h]

/-- The trees agree up to the nodes that their tags stand for exactly if all hidden inks agree. -/
theorem mapSource_eq_iff_hiddenInk :
    t.mapSource (fun _ => default) = t'.mapSource (fun _ => default) ↔
      ∀ p u u', t.at? p = some u → t'.at? p = some u' →
        u.head.source.hiddenInk? = u'.head.source.hiddenInk? := by
  have hshape := mapHead_unstyled_eq hmask hbuilt hbuilt'
  constructor
  · intro h p u u' hp hp'
    have hat := congrArg (fun v : Tag => v.at? p) h
    simp only [at?_mapSource, hp, hp', Option.map_some, Option.some.injEq] at hat
    have hhead := congrArg (fun v : Tag => v.head.style) hat
    simp only [head_mapSource] at hhead
    exact (style_eq_iff hmask hbuilt hbuilt' hp hp').mp hhead
  · intro h
    rw [mapSource_eq_mapHead, mapSource_eq_mapHead]
    refine mapHead_eq_of_at? hshape fun p u u' hp hp' => ?_
    have hstyle := (style_eq_iff hmask hbuilt hbuilt' hp hp').mpr (h p u u' hp hp')
    -- Everything but the style is in the shape.
    have hat := congrArg (fun v : Tag => v.at? p) hshape
    simp only [at?_mapHead, hp, hp', Option.map_some, Option.some.injEq] at hat
    have hhead := congrArg head hat
    rw [head_mapHead, head_mapHead] at hhead
    show ({ u.head.unstyled with style := u.head.style } : Head) =
      { u'.head.unstyled with style := u'.head.style }
    rw [hhead, hstyle]

end Pair

/-- **When hidden paints make no difference.** Scenes with one mask have trees of one shape, with the same names
and flags, and leave the counter at one number. The styles at a position have one name and the same
declarations, but that each ends with the hidden ink of its own node. So all styles are the same exactly if
at every position both nodes have the same hidden ink, or none. -/
theorem build_eq_iff_hiddenInk (hmask : first.maskPaints = second.maskPaints) (unit : LengthUnit)
    (detection : Detection) (start : Counter) :
    let built := build first unit detection start
    let built' := build second unit detection start
    built.1.map (mapHead Head.unstyled) = built'.1.map (mapHead Head.unstyled) ∧ built.2 = built'.2 ∧
      ∀ t t', built.1 = some t → built'.1 = some t' →
        (∀ p u u', t.at? p = some u → t'.at? p = some u' → ∃ className shared,
          u.head.style = .ofProperties className (shared ++ u.head.source.hiddenInkRules unit) ∧
            u'.head.style = .ofProperties className (shared ++ u'.head.source.hiddenInkRules unit)) ∧
        (t.mapSource (fun _ => default) = t'.mapSource (fun _ => default) ↔
          ∀ p u u', t.at? p = some u → t'.at? p = some u' →
            u.head.source.hiddenInk? = u'.head.source.hiddenInk?) := by
  intro built built'
  obtain ⟨htree, hcounter⟩ := unstyled_build_eq hmask unit detection start
  refine ⟨htree, hcounter, fun t t' ht ht' => ?_⟩
  have hbuilt : build first unit detection start = (some t, built.2) := Prod.ext ht rfl
  have hbuilt' : build second unit detection start = (some t', built'.2) := Prod.ext ht' rfl
  exact ⟨fun p u u' hp hp' => exists_style_eq_append hmask hbuilt hbuilt' hp hp',
    mapSource_eq_iff_hiddenInk hmask hbuilt hbuilt'⟩

/-- A frame with a hidden fill, around a rectangle with a hidden fill and a visible stroke, and a text with a
hidden stroke. -/
def poster (hidden : PaintKind) : SceneNode :=
  .container .frame { name := "Poster" } { fills := [{ kind := hidden, visible := false }] }
    [.shape .rectangle { name := "Photo" }
        { fills := [{ kind := hidden, visible := false }], strokes := [.solid 1 0 0], strokeWeight := 2 },
      .text { name := "Title" }
        { characters := "Hello", fills := [.solid 0 0 0], strokes := [{ kind := hidden, visible := false }] }]

/-- The hidden paints are no ink of their nodes, so it makes no difference that they are images in one poster
and colours in the other. -/
theorem build_eq_iff_hiddenInk_poster :
    (poster Paint.image.kind).maskPaints = (poster (.solid ⟨1, 0, 0⟩)).maskPaints ∧
      ∃ t t' stop, build (poster Paint.image.kind) .px .identify {} = (some t, stop) ∧
        build (poster (.solid ⟨1, 0, 0⟩)) .px .identify {} = (some t', stop) ∧
        t.mapSource (fun _ => default) = t'.mapSource fun _ => default := by
  have hmask : (poster Paint.image.kind).maskPaints = (poster (.solid ⟨1, 0, 0⟩)).maskPaints := rfl
  obtain ⟨t, stop, hbuilt⟩ := exists_build .px .identify {} (show (poster Paint.image.kind).visible by decide)
  obtain ⟨t', stop', hbuilt'⟩ :=
    exists_build .px .identify {} (show (poster (.solid ⟨1, 0, 0⟩)).visible by decide)
  have hnone : (build (poster Paint.image.kind) .px .identify {}).1.map
      (fun t => t.preorder.all fun u => u.head.source.hiddenInk?.isNone) = some true := by
    decide
  have hnone' : (build (poster (.solid ⟨1, 0, 0⟩)) .px .identify {}).1.map
      (fun t => t.preorder.all fun u => u.head.source.hiddenInk?.isNone) = some true := by
    decide
  obtain ⟨-, hcounter, hpair⟩ := build_eq_iff_hiddenInk hmask .px .identify {}
  rw [hbuilt, hbuilt'] at hcounter hpair
  rw [hbuilt, Option.map_some, Option.some.injEq, List.all_eq_true] at hnone
  rw [hbuilt', Option.map_some, Option.some.injEq, List.all_eq_true] at hnone'
  obtain rfl : stop = stop' := hcounter
  refine ⟨hmask, t, t', stop, hbuilt, hbuilt', (hpair t t' rfl rfl).2.mpr fun p u u' hp hp' => ?_⟩
  rw [Option.isNone_iff_eq_none.mp (hnone u (mem_preorder_of_at? hp)),
    Option.isNone_iff_eq_none.mp (hnone' u' (mem_preorder_of_at? hp'))]

/-- A rectangle with one stroke. -/
def outlined (stroke : Paint) : SceneNode :=
  .shape .rectangle { name := "Box" } { strokes := [stroke], strokeWeight := 2 }

/-- Not all hidden paints style nothing: the border of a rectangle is written from a hidden stroke. -/
theorem not_forall_mapSource_eq :
    ¬∀ (first second : SceneNode) (unit : LengthUnit) (detection : Detection) (start stop stop' : Counter)
      (t t' : Tag), first.maskPaints = second.maskPaints →
      build first unit detection start = (some t, stop) → build second unit detection start = (some t', stop') →
      t.mapSource (fun _ => default) = t'.mapSource fun _ => default := by
  intro h
  have hmask : (outlined (Paint.solid 1 0 0).hidden).maskPaints =
      (outlined { kind := .unsupported, visible := false }).maskPaints := rfl
  obtain ⟨t, stop, hbuilt⟩ :=
    exists_build .px .identify {} (show (outlined (Paint.solid 1 0 0).hidden).visible by decide)
  obtain ⟨t', stop', hbuilt'⟩ := exists_build .px .identify {}
    (show (outlined { kind := .unsupported, visible := false }).visible by decide)
  have hinks := (mapSource_eq_iff_hiddenInk hmask hbuilt hbuilt').mp (h _ _ _ _ _ _ _ _ _ hmask hbuilt hbuilt')
  have hink := hinks [] t t' rfl rfl
  obtain ⟨-, hhead, -⟩ := of_buildIn hbuilt
  obtain ⟨-, hhead', -⟩ := of_buildIn hbuilt'
  rw [hhead, hhead'] at hink
  cases hink

end Tag

end Handoff
