/-
# Handoff.Proofs.Markup.Scope — the names that a module declares

A module declares the classes of its stylesheet if it looks any up, a local name for each import, and its own
component. All of them share one scope. An import is made for each instance name, and what it declares is that
name with a capital; the component is named after the root, by another function. Nothing compares the three. So
there is one clash that cannot happen, with the classes, and there are two that can: names that differ in a small
first letter have one capitalized form, and an instance may be called like the root.
-/

import Handoff.Proofs.Markup.Referred
import Handoff.Proofs.Text.Uppercase
import Mathlib.Data.List.Nodup

namespace Handoff

namespace Text

theorem capitalize_ne_styles (name : String) : capitalize name ≠ "styles" := by
  intro h
  have hletters : (capitalize name).toList = 's' :: ['t', 'y', 'l', 'e', 's'] := by
    rw [h]
    decide
  have hsmall := not_small_of_capitalize hletters
  revert hsmall
  decide

end Text

namespace SceneNode

theorem sanitize_referenceName (n : SceneNode) : Text.sanitize n.referenceName = n.referenceName := by
  rw [referenceName]
  split
  · decide
  · exact Text.sanitize_sanitize n.name

end SceneNode

namespace Markup

variable {dialect : Dialect} {root : SceneNode} {unit : LengthUnit} {detection : Detection}
  {start stop : Counter} {components : List UserComponent} {t : Tag}

/-! ## Declared names -/

/-- The name that the classes of the stylesheet are imported as. -/
def stylesNames : Dialect → List String
  | .elementBased => ["styles"]
  | .componentBased => []

/-- The names that a module declares, in order: the classes, the imports and its component. -/
def declaredNames (dialect : Dialect) (t : Tag) : List String :=
  stylesNames dialect ++ (imports t).map Import.localName ++ [componentName t]

theorem map_localName_imports (t : Tag) :
    (imports t).map Import.localName = (instanceNames t).eraseDups.map Text.capitalize := by
  rw [imports, List.map_map]
  rfl

/-- A module declares no name twice exactly if the names of its instances stay distinct with a capital and none
of them becomes the name of the component. -/
theorem declaredNames_nodup_iff :
    (declaredNames dialect t).Nodup ↔
      (∀ a ∈ instanceNames t, ∀ b ∈ instanceNames t, Text.capitalize a = Text.capitalize b → a = b) ∧
        ∀ a ∈ instanceNames t, Text.capitalize a ≠ componentName t := by
  have hstyles : ∀ name ∈ (imports t).map Import.localName ++ [componentName t], name ≠ "styles" := by
    rw [map_localName_imports]
    intro name hname
    rcases List.mem_append.mp hname with hname | hname
    · obtain ⟨a, -, rfl⟩ := List.mem_map.mp hname
      exact Text.capitalize_ne_styles a
    · rw [List.mem_singleton.mp hname]
      exact Text.capitalize_ne_styles _
  have hfront : (declaredNames dialect t).Nodup ↔
      ((imports t).map Import.localName ++ [componentName t]).Nodup := by
    cases dialect with
    | elementBased =>
      exact List.nodup_cons.trans (and_iff_right fun hmem => hstyles _ hmem rfl)
    | componentBased => rfl
  rw [hfront, map_localName_imports, List.nodup_append, List.nodup_map_iff_inj_on (nodup_eraseDups _)]
  simp only [List.mem_eraseDups, List.mem_map, List.mem_singleton]
  constructor
  · rintro ⟨hinjective, -, hdisjoint⟩
    exact ⟨hinjective, fun a ha => hdisjoint _ ⟨a, ha, rfl⟩ _ rfl⟩
  · rintro ⟨hinjective, hcomponent⟩
    refine ⟨hinjective, List.nodup_singleton _, ?_⟩
    rintro _ ⟨a, ha, rfl⟩ _ rfl
    exact hcomponent a ha

/-! ## Built trees -/

/-- Declared components leave the root as it is. -/
theorem componentName_identify (hbuilt : Tag.build root unit detection start = (some t, stop)) :
    componentName (t.identify components) = Text.capitalize root.referenceName := by
  obtain ⟨-, hhead, -⟩ := Tag.of_buildIn hbuilt
  have hname : (t.identify components).name = root.referenceName := by
    rw [Tag.identify_eq, Tag.name, hhead]
    rfl
  rw [componentName, hname, root.sanitize_referenceName]

/-- Instances are called after a declared component or after an instance of the scene. -/
theorem of_mem_instanceNames_identify (hroot : root.visible)
    (hbuilt : Tag.build root unit detection start = (some t, stop)) {name : String}
    (h : name ∈ instanceNames (t.identify components)) :
    (∃ c ∈ components, name = Text.sanitize c.name) ∨
      detection = .identify ∧ ∃ n ∈ root.preorder, n.visible ∧ n.isInstance ∧ name = n.referenceName := by
  rw [← map_name_references .elementBased, List.mem_map] at h
  obtain ⟨r, hr, rfl⟩ := h
  obtain ⟨-, hu, hinstance⟩ := mem_references_iff.mp hr
  obtain ⟨v, hv, hsame | ⟨c, hc, hnew⟩⟩ := Tag.of_identify_at hu
  · right
    obtain ⟨n, counter, hn, hbuiltAt⟩ := Tag.of_buildIn_at hbuilt hv
    have hsource : v.head.source = n := Tag.source_of_buildIn hbuiltAt
    rw [hsame, (Tag.reflects_of_buildIn hbuiltAt).isInstance, hsource] at hinstance
    obtain ⟨hmem, hvisible⟩ := SceneNode.of_shownAt? hroot hn
    refine ⟨hinstance.1, n, hmem, hvisible, hinstance.2, ?_⟩
    rw [Tag.name, hsame, ← hsource]
    exact Tag.name_of_build hbuilt hv
  · left
    refine ⟨c, hc, ?_⟩
    rw [Tag.name, hnew]
    rfl

/-- **When a module declares no name twice.** A visible root has a tree, into which declared components may be put.
The module then declares a component named after the root, and imports under the names of declared components and
of visible instances of the scene, of the latter only if they are looked for. In both dialects its names are
distinct exactly if no two instance names have one capitalized form, and none has that of the root. -/
theorem declaredNames_nodup_build_iff (unit : LengthUnit) (detection : Detection) (start : Counter)
    (components : List UserComponent) (hroot : root.visible) :
    ∃ t stop, Tag.build root unit detection start = (some t, stop) ∧
      componentName (t.identify components) = Text.capitalize root.referenceName ∧
      (∀ name ∈ instanceNames (t.identify components),
        (∃ c ∈ components, name = Text.sanitize c.name) ∨
          detection = .identify ∧
            ∃ n ∈ root.preorder, n.visible ∧ n.isInstance ∧ name = n.referenceName) ∧
      ∀ dialect, ImportsMatch dialect (t.identify components) ∧
        ((declaredNames dialect (t.identify components)).Nodup ↔
          (∀ a ∈ instanceNames (t.identify components), ∀ b ∈ instanceNames (t.identify components),
            Text.capitalize a = Text.capitalize b → a = b) ∧
          ∀ a ∈ instanceNames (t.identify components),
            Text.capitalize a ≠ Text.capitalize root.referenceName) := by
  obtain ⟨t, stop, hbuilt⟩ := Tag.exists_build unit detection start hroot
  have hcomponent : componentName (t.identify components) = _ := componentName_identify hbuilt
  refine ⟨t, stop, hbuilt, hcomponent, fun name => of_mem_instanceNames_identify hroot hbuilt,
    fun dialect => ⟨?_, ?_⟩⟩
  · exact importsMatch_of_sanitized dialect fun _ _ hu => Tag.sanitize_name_of_identify hbuilt hu
  · rw [declaredNames_nodup_iff, hcomponent]

/-- A toolbar with two buttons that differ in a small first letter, and with a layer for an icon. -/
def buttons : SceneNode :=
  .container .frame { name := "Toolbar" } {}
    [.container .componentInstance { name := "button" } {} [],
      .container .frame { name := "app icon" } {} [],
      .container .componentInstance { name := "Button" } {} []]

theorem instanceNames_buttons {t : Tag} {stop : Counter}
    (hbuilt : Tag.build buttons .px .identify {} = (some t, stop)) :
    instanceNames (t.identify [{ name := "app icon" }]) = ["button", "appicon", "Button"] := by
  have hnames : (Tag.build buttons .px .identify {}).1.map (fun t =>
      instanceNames (t.identify [{ name := "app icon" }])) = some ["button", "appicon", "Button"] := by
    decide
  rwa [hbuilt, Option.map_some, Option.some.injEq] at hnames

/-- The two buttons are imported under one name, the icon and the toolbar have names of their own. -/
theorem declaredNames_nodup_build_iff_buttons :
    buttons.visible ∧ ∃ t stop, Tag.build buttons .px .identify {} = (some t, stop) ∧
      ∀ dialect, declaredNames dialect (t.identify [{ name := "app icon" }]) =
          stylesNames dialect ++ ["Button", "Appicon", "Button", "Toolbar"] ∧
        ¬(declaredNames dialect (t.identify [{ name := "app icon" }])).Nodup := by
  have hroot : buttons.visible := by decide
  obtain ⟨t, stop, hbuilt, hcomponent, -, hdeclared⟩ :=
    declaredNames_nodup_build_iff .px .identify {} [{ name := "app icon" }] hroot
  have hnames := instanceNames_buttons hbuilt
  refine ⟨hroot, t, stop, hbuilt, fun dialect => ⟨?_, fun hnodup => ?_⟩⟩
  · rw [declaredNames, map_localName_imports, hnames, hcomponent, List.append_assoc]
    rfl
  · have hinjective := ((hdeclared dialect).2.mp hnodup).1
    rw [hnames] at hinjective
    exact absurd (hinjective "button" (by decide) "Button" (by decide) (by decide)) (by decide)

/-- Not every module declares its names once: both buttons are imported as `Button`. -/
theorem not_forall_declaredNames_nodup :
    ¬∀ (root : SceneNode) (unit : LengthUnit) (detection : Detection) (components : List UserComponent)
      (t : Tag) (stop : Counter) (dialect : Dialect), root.visible →
        Tag.build root unit detection {} = (some t, stop) →
          (declaredNames dialect (t.identify components)).Nodup := by
  intro h
  obtain ⟨t, stop, hbuilt⟩ := Tag.exists_build .px .identify {} (show buttons.visible by decide)
  have hnodup := h buttons .px .identify [{ name := "app icon" }] t stop .elementBased (by decide) hbuilt
  have hinjective := (declaredNames_nodup_iff.mp hnodup).1
  rw [instanceNames_buttons hbuilt] at hinjective
  exact absurd (hinjective "button" (by decide) "Button" (by decide) (by decide)) (by decide)

end Markup

end Handoff
