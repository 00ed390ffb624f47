/-
# Handoff.Proofs.Markup.Lookup — what is looked up and what is defined

The element-based markup looks classes up and the flat rules define them, by two walks of one tree that
stop at different tags: the markup writes what is inside of a component definition, and the rules leave
it out. Outside of definitions the walks agree class by class, repetitions included; that is one
simulation over all tag trees, whatever their flags. Inside of a definition a class that is looked up may
have no rule. Lookups and rules are what stands in the two texts, which `SpellsLookups` says of every tree.
-/

import Handoff.Proofs.Markup.Written
import Handoff.Proofs.Tag.Definition
import Handoff.Stylesheet.Rules

namespace Handoff

/-! ## Rules -/

namespace Stylesheet

/-- The blocks that the flat rules of a tag tree are made of. -/
def flatBlocks (t : Tag) : List Block :=
  (records t).map flatBlock

/-- A block of the flat rules is written behind a dot, with its lines between braces. -/
theorem flatRules_eq_join (t : Tag) :
    flatRules t = String.join ((flatBlocks t).map fun b =>
      "." ++ b.name ++ " \x7b\n" ++ "\n".intercalate b.lines ++ "\n\x7d\n") := by
  rw [flatRules, flatBlocks, List.map_map]
  rfl

/-- The names of the flat rules: their selectors without the dot. -/
def ruleNames (t : Tag) : List String :=
  (flatBlocks t).map Block.name

theorem ruleNames_eq (t : Tag) : ruleNames t = (records t).map fun r => Text.sanitize r.className := by
  rw [ruleNames, flatBlocks, List.map_map]
  rfl

end Stylesheet

namespace Markup

open Stylesheet (Block records recordsOfList ruleNames ruleNames_eq flatBlocks flatRules
  flatRules_eq_join)

/-! ## Lookups and their tags -/

/-- What is looked up for a position is the class of the tag that stands there. -/
theorem of_mem_lookups {dialect : Dialect} {t : Tag} {l : Lookup} (h : l ∈ lookups dialect t) :
    ∃ u, t.at? l.position = some u ∧ styleClass? dialect u.head = some l.className := by
  obtain ⟨line, hline, hlookup⟩ := List.mem_filterMap.mp h
  obtain ⟨className, hclass, rfl⟩ := Option.map_eq_some_iff.mp hlookup
  exact exists_tag_of_styleClass? hline hclass

/-! ## The two walks -/

/-- The lookups for tags that are no component definitions and not below one. -/
def outside (t : Tag) (ls : List Lookup) : List Lookup :=
  ls.filter fun l => !t.inDefinition l.position

theorem outside_append (t : Tag) (ls ms : List Lookup) :
    outside t (ls ++ ms) = outside t ls ++ outside t ms :=
  List.filter_append ls ms

/-- What is looked up below a child is outside of the definitions of the tree if it is outside of those
of the child. -/
theorem outside_map_below {t child : Tag} {i : Nat} (htop : ¬t.head.isDefinition)
    (hchild : t.children[i]? = some child) (ls : List Lookup) :
    outside t (ls.map (Lookup.below i)) = (outside child ls).map (Lookup.below i) := by
  have hposition (l : Lookup) :
      t.inDefinition (Lookup.below i l).position = child.inDefinition l.position := by
    rw [Lookup.below, Tag.inDefinition_cons hchild, Bool.eq_false_iff.mpr htop, Bool.false_or]
  rw [outside, outside, List.filter_map]
  simp only [Function.comp_def, hposition]

/-- A tag by itself looks up the name of its own rule. -/
theorem className_ownLookups {h : Tag.Head} (hplain : ¬h.isDefinition) :
    (ownLookups .elementBased h).map Lookup.className =
      if h.style.isEmpty then [] else [Text.sanitize h.style.className] := by
  have hdialect : isPlain .elementBased h = true := by
    rw [isPlain, Bool.eq_false_iff.mpr hplain]
    rfl
  rw [ownLookups, styleClass?, hdialect, Bool.true_and]
  by_cases hempty : h.style.isEmpty
  · rw [if_pos hempty, hempty]
    rfl
  · rw [if_neg hempty, if_pos (by simpa using hempty)]
    rfl

mutual

/-- The walk of the markup, outside of definitions, meets the records of the walk of the rules. -/
theorem className_outside (level : Nat) :
    (t : Tag) →
      (outside t ((placedLines .elementBased level t).filterMap PlacedLine.lookup?)).map
        Lookup.className = (records t).map fun r => Text.sanitize r.className
  | ⟨head, children⟩ => by
    rw [filterMap_lookup?_placedLines, records]
    by_cases hinstance : head.isInstance
    · rw [if_pos hinstance, hinstance, Bool.true_or, if_pos rfl]
      rfl
    · rw [if_neg hinstance, Bool.eq_false_iff.mpr hinstance, Bool.false_or]
      by_cases hdefinition : head.isDefinition
      · -- The markup goes on below a definition, but nothing there is outside of it.
        have hall (l : Lookup) : Tag.inDefinition ⟨head, children⟩ l.position :=
          Tag.inDefinition_of_isDefinition hdefinition l.position
        rw [if_pos hdefinition, outside]
        simp [hall]
      · -- The one case in which both walks write something for the tag and go on below it.
        have hown : outside ⟨head, children⟩ (ownLookups .elementBased head) =
            ownLookups .elementBased head := by
          rw [outside, List.filter_eq_self]
          intro l hl
          obtain ⟨className, -, rfl⟩ := List.mem_map.mp hl
          simpa [Tag.inDefinition] using hdefinition
        have hbelow := className_outsideOfList (level + 1) 0 (t := ⟨head, children⟩) hdefinition
          children fun i => by rw [Nat.zero_add]
        rw [if_neg hdefinition, outside_append, List.map_append, hown, hbelow,
          className_ownLookups hdefinition]
        split <;> rfl

theorem className_outsideOfList (level place : Nat) {t : Tag} (htop : ¬t.head.isDefinition) :
    (ts : List Tag) → (∀ i, t.children[place + i]? = ts[i]?) →
      (outside t ((placedLinesOfList .elementBased level place ts).filterMap PlacedLine.lookup?)).map
        Lookup.className = (recordsOfList ts).map fun r => Text.sanitize r.className
  | [], _ => rfl
  | u :: us, h => by
    have hfirst : t.children[place]? = some u := h 0
    have hrest (i : Nat) : t.children[place + 1 + i]? = us[i]? := by
      rw [Nat.add_assoc, Nat.add_comm 1, h]
      rfl
    -- Being seen from the parent changes the position of a lookup and not its class.
    have hclass : Lookup.className ∘ Lookup.below place = Lookup.className := rfl
    rw [filterMap_lookup?_placedLinesOfList, recordsOfList, outside_append, List.map_append,
      List.map_append, outside_map_below htop hfirst, List.map_map, hclass, className_outside level u,
      className_outsideOfList level (place + 1) htop us hrest]

end

/-- Outside of definitions the classes that are looked up are the names of the rules, one by one. -/
theorem map_className_outside_lookups (t : Tag) :
    (outside t (lookups .elementBased t)).map Lookup.className = ruleNames t := by
  rw [lookups, className_outside, ruleNames_eq]

/-- A class that is looked up outside of definitions has a rule. -/
theorem mem_ruleNames_of_mem_lookups {t : Tag} {l : Lookup} (h : l ∈ lookups .elementBased t)
    (houtside : t.inDefinition l.position = false) : l.className ∈ ruleNames t := by
  rw [← map_className_outside_lookups]
  refine List.mem_map_of_mem (List.mem_filter.mpr ⟨h, ?_⟩)
  rw [houtside]
  rfl

/-- How the lookups and the rules of a tag tree stand in the text of its body and in that of its flat rules. -/
structure SpellsLookups (t : Tag) : Prop where
  /-- The body is its placed lines. -/
  body : body .elementBased t = "\n".intercalate ((placedLines .elementBased 0 t).map fun l => l.line.text)
  /-- Each line has the class that it looks up behind the name of its element, and no class if it looks up none. -/
  lines : ∀ l ∈ placedLines .elementBased 0 t, ∃ u, t.at? l.position = some u ∧
    (l.Begins .elementBased u ∨ l.Ends .elementBased u)
  /-- The flat rules are their blocks, each behind the dot of its selector. -/
  rules : flatRules t = String.join ((flatBlocks t).map fun b =>
    "." ++ b.name ++ " \x7b\n" ++ "\n".intercalate b.lines ++ "\n\x7d\n")

theorem spellsLookups (t : Tag) : SpellsLookups t where
  body := body_eq_intercalate _ t
  lines _ := begins_or_ends
  rules := flatRules_eq_join t

/-- **Markup and flat rules agree outside of component definitions.** Each class that is looked up in the body of
a tag tree is that of the tag at its position, and those outside of definitions are the names of the blocks
of the flat rules, element for element. -/
theorem outside_lookups_eq_names (t : Tag) :
    SpellsLookups t ∧
    (∀ l ∈ lookups .elementBased t, ∃ u, t.at? l.position = some u ∧
      styleClass? .elementBased u.head = some l.className) ∧
    (outside t (lookups .elementBased t)).map Lookup.className = (flatBlocks t).map Block.name :=
  ⟨spellsLookups t, fun _ hl => of_mem_lookups hl, map_className_outside_lookups t⟩

/-! ## Built trees -/

variable {root : SceneNode}

/-- **What is looked up outside of component definitions is defined.** A visible root has a tree. When the
declared components are put into it, every class that is looked up for a tag outside of component
definitions has a flat rule; and where components are not recognised, every class that is looked up has
one. Lookups and rules are those of the written texts. -/
theorem lookup_mem_ruleNames (unit : LengthUnit) (detection : Detection) (start : Counter)
    (components : List UserComponent) (hroot : root.visible) :
    ∃ t stop, Tag.build root unit detection start = (some t, stop) ∧
      SpellsLookups (t.identify components) ∧
      (∀ l ∈ lookups .elementBased (t.identify components),
        (t.identify components).inDefinition l.position = false →
          l.className ∈ ruleNames (t.identify components)) ∧
      (detection = .ignore → ∀ l ∈ lookups .elementBased (t.identify components),
        l.className ∈ ruleNames (t.identify components)) := by
  obtain ⟨t, stop, hbuilt⟩ := Tag.exists_build unit detection start hroot
  refine ⟨t, stop, hbuilt, spellsLookups _, fun l hl houtside => mem_ruleNames_of_mem_lookups hl houtside, ?_⟩
  rintro rfl l hl
  apply mem_ruleNames_of_mem_lookups hl
  -- A covered position would have been covered before the components were put in.
  rw [Bool.eq_false_iff]
  intro hinside
  obtain ⟨q, hq⟩ := Tag.inDefinition_of_identify hinside
  rw [Tag.inDefinition_of_build_ignore hbuilt q] at hq
  cases hq

/-- A frame around a component definition with a text in it. -/
def gallery : SceneNode :=
  .container .frame { name := "Gallery" } {}
    [.container .component { name := "Card" } {} [.text { name := "Body" } { characters := "..." }]]

/-- Where components are recognised, the text of the gallery looks its class up inside of the definition,
and only the frame outside of it has a rule; where they are not, all three classes have one. -/
theorem lookup_mem_ruleNames_gallery :
    (∃ t stop, Tag.build gallery .px .identify {} = (some t, stop) ∧
      (lookups .elementBased (t.identify [])).map Lookup.className = ["Gallery00", "text1"] ∧
      (outside (t.identify []) (lookups .elementBased (t.identify []))).map Lookup.className =
        ["Gallery00"] ∧
      ∀ l ∈ lookups .elementBased (t.identify []), (t.identify []).inDefinition l.position = false →
        l.className ∈ ruleNames (t.identify [])) ∧
    ∃ t stop, Tag.build gallery .px .ignore {} = (some t, stop) ∧
      (lookups .elementBased (t.identify [])).map Lookup.className = ["Gallery00", "Card10", "text1"] ∧
      ∀ l ∈ lookups .elementBased (t.identify []), l.className ∈ ruleNames (t.identify []) := by
  have hroot : gallery.visible := by decide
  obtain ⟨t, stop, hbuilt, -, houtside, -⟩ := lookup_mem_ruleNames .px .identify {} [] hroot
  obtain ⟨t', stop', hbuilt', -, -, hdefined⟩ := lookup_mem_ruleNames .px .ignore {} [] hroot
  have hnames : (Tag.build gallery .px .identify {}).1.map (fun t =>
      ((lookups .elementBased (t.identify [])).map Lookup.className,
        (outside (t.identify []) (lookups .elementBased (t.identify []))).map Lookup.className)) =
          some (["Gallery00", "text1"], ["Gallery00"]) := by
    decide
  have hnames' : (Tag.build gallery .px .ignore {}).1.map (fun t =>
      (lookups .elementBased (t.identify [])).map Lookup.className) =
        some ["Gallery00", "Card10", "text1"] := by
    decide
  rw [hbuilt, Option.map_some, Option.some.injEq, Prod.mk.injEq] at hnames
  rw [hbuilt'] at hnames'
  exact ⟨⟨t, stop, hbuilt, hnames.1, hnames.2, houtside⟩,
    ⟨t', stop', hbuilt', Option.some.inj hnames', hdefined rfl⟩⟩

/-- Inside of a component definition a class may be looked up that no flat rule defines: where components
are recognised, the text of the gallery looks up `text1`, and only `Gallery00` has a rule. -/
theorem not_forall_lookup_mem_ruleNames :
    ¬∀ (root : SceneNode) (unit : LengthUnit) (detection : Detection) (components : List UserComponent)
      (t : Tag) (stop : Counter), root.visible →
      Tag.build root unit detection {} = (some t, stop) →
      ∀ l ∈ lookups .elementBased (t.identify components),
        l.className ∈ ruleNames (t.identify components) := by
  intro h
  obtain ⟨t, stop, hbuilt⟩ := Tag.exists_build .px .identify {} (show gallery.visible by decide)
  have hdangling : (Tag.build gallery .px .identify {}).1.map
      (fun t => (lookups .elementBased (t.identify [])).all fun l =>
        ruleNames (t.identify []) |>.contains l.className) = some false := by
    decide
  rw [hbuilt] at hdangling
  have hdefined := h gallery .px .identify [] t stop (by decide) hbuilt
  rw [Option.map_some, Option.some.injEq, List.all_eq_false] at hdangling
  obtain ⟨l, hl, hmissing⟩ := hdangling
  exact hmissing (List.contains_iff_mem.mpr (hdefined l hl))

end Markup

end Handoff
