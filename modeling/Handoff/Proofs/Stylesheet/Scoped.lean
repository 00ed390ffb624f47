/-
# Handoff.Proofs.Stylesheet.Scoped — flat and scoped rules, block by block

Both sheets are made from the same records, so they agree in everything but the names of their blocks. A flat
rule loses the signs `=`, `&`, `#` and `/` from its name together with the blanks, and a scoped rule only the
blanks. So the name of a scoped block, sanitized, is that of the flat block, and the two are the same exactly
if there was no sign to remove. In the tree of a scene all signs come from display names.
-/

import Handoff.Proofs.Markup.Lookup
import Handoff.Proofs.Stylesheet.Translation
import Handoff.Proofs.Text.Digits

namespace Handoff

/-! ## Signs -/

namespace Text

/-- The characters that sanitizing removes besides the blanks. -/
def signs : List Char :=
  ['=', '&', '#', '/']

/-- Whether a name has no signs. -/
def isSignless (name : String) : Bool :=
  name.toList.all fun c => !signs.contains c

theorem isSpecial_eq (c : Char) : isSpecial c = (isBlank c || signs.contains c) := by
  simp only [isSpecial, signs, List.contains_cons, List.contains_nil, Bool.or_false, Bool.or_assoc]

theorem isBlank_of_mem_signs {c : Char} (h : c ∈ signs) : isBlank c = false := by
  have hall : signs.all fun c => !isBlank c := by decide
  simpa using List.all_eq_true.mp hall c h

/-- Sanitizing removes the blanks, and then the signs. -/
theorem toList_sanitize (name : String) :
    (sanitize name).toList = (dropBlanks name).toList.filter fun c => !signs.contains c := by
  rw [sanitize, dropBlanks, String.toList_ofList, String.toList_ofList, List.filter_filter]
  refine List.filter_congr fun c _ => ?_
  rw [isSpecial_eq, Bool.not_or, Bool.and_comm]

/-- It makes no difference to sanitizing whether the blanks are gone already. -/
theorem sanitize_dropBlanks (name : String) : sanitize (dropBlanks name) = sanitize name := by
  have hblanks : dropBlanks (dropBlanks name) = dropBlanks name := by
    rw [dropBlanks, dropBlanks, String.toList_ofList, List.filter_filter]
    simp only [Bool.and_self]
  rw [← String.toList_inj, toList_sanitize, hblanks, toList_sanitize]

/-- Removing the blanks is sanitizing exactly if there are no signs. -/
theorem dropBlanks_eq_sanitize_iff {name : String} : dropBlanks name = sanitize name ↔ isSignless name := by
  rw [← String.toList_inj, toList_sanitize, eq_comm, List.filter_eq_self, isSignless, List.all_eq_true,
    dropBlanks, String.toList_ofList]
  constructor
  · intro h c hc
    by_contra hsign
    have hmem : c ∈ signs := by simpa using hsign
    -- No sign is lost among the blanks.
    exact hsign (h c (List.mem_filter.mpr ⟨hc, by rw [isBlank_of_mem_signs hmem]; rfl⟩))
  · exact fun h c hc => h c (List.mem_filter.mp hc).1

theorem isSignless_append {a b : String} : isSignless (a ++ b) = (isSignless a && isSignless b) := by
  rw [isSignless, String.toList_append, List.all_append, isSignless, isSignless]

theorem isSignless_toString (number : Nat) : isSignless (toString number) := by
  rw [isSignless, List.all_eq_true]
  intro c hc
  have hspecial := isSpecial_of_isDigit (isDigit_of_mem_toString hc)
  rw [isSpecial_eq, Bool.or_eq_false_iff] at hspecial
  rw [hspecial.2]
  rfl

end Text

/-- Class names have the signs of the display names that they are made from. -/
theorem SceneNode.isSignless_className (n : SceneNode) (ctx : StyleContext) (number : Nat) :
    Text.isSignless (n.className ctx number) =
      if n.isImageLike then Text.isSignless ((ctx.parent.map name).getD "")
      else n.isText || Text.isSignless n.name := by
  rw [className]
  split
  · rw [Text.isSignless_append, Text.isSignless_append, Text.isSignless_toString,
      show Text.isSignless "img" = true by decide, Bool.and_true, Bool.and_true]
  · split
    next htext =>
      rw [Text.isSignless_append, Text.isSignless_toString, htext, Bool.true_or,
        show Text.isSignless "text" = true by decide, Bool.and_true]
    next htext =>
      rw [Text.isSignless_append, Text.isSignless_append, Text.isSignless_toString, Text.isSignless_toString,
        Bool.and_true, Bool.and_true, Bool.eq_false_iff.mpr htext, Bool.false_or]

namespace Stylesheet

/-! ## Blocks -/

/-- The blocks of the scoped rules. -/
def scopedBlocks (t : Tag) : List Block :=
  (records t).map scopedBlock

/-- A class rule and a styled element that are filled by one record, and how far their names agree. -/
structure FilledBy (r : StyleRecord) (rule element : Block) : Prop where
  rule_lines : rule.lines = r.properties.map fun p => "  " ++ p.name ++ ": " ++ p.value ++ ";"
  element_lines : element.lines = r.properties.map fun p => "  " ++ p.name ++ ": " ++ p.value ++ ";"
  rule_name : rule.name = Text.sanitize r.className
  element_name : element.name = Text.dropBlanks r.className
  sanitize_name : Text.sanitize element.name = rule.name
  name_eq_iff : element.name = rule.name ↔ Text.isSignless r.className

/-- A block of the scoped rules is written as a constant of its name, with its lines between backticks. -/
theorem scopedRules_eq_join (t : Tag) :
    scopedRules t = String.join ((scopedBlocks t).map fun b =>
      "const " ++ b.name ++ " = styled.div`\n" ++ "\n".intercalate b.lines ++ "\n`\n") := by
  rw [scopedRules, scopedBlocks, List.map_map]
  rfl

theorem filledBy (r : StyleRecord) : FilledBy r (flatBlock r) (scopedBlock r) :=
  ⟨rfl, rfl, rfl, rfl, Text.sanitize_dropBlanks r.className, Text.dropBlanks_eq_sanitize_iff⟩

theorem map_name_scopedBlocks_iff (t : Tag) :
    (scopedBlocks t).map Block.name = (flatBlocks t).map Block.name ↔
      ∀ r ∈ records t, Text.isSignless r.className := by
  rw [flatBlocks, scopedBlocks, List.map_map, List.map_map, List.map_inj_left]
  exact forall₂_congr fun r _ => Text.dropBlanks_eq_sanitize_iff

/-- **Flat and scoped rules are filled by the same records.** Each sheet is its blocks one behind the other, one
for each record and in the order of the records: class rules in one, constants for styled elements in the other.
The blocks of a record have the same lines, one for each of its properties; the name of the scoped block is the
class name without blanks, which comes to the flat name when it is sanitized; and all names are the same exactly
if no class name has a sign. -/
theorem blocks_filledBy (t : Tag) :
    flatRules t = String.join ((flatBlocks t).map fun b =>
        "." ++ b.name ++ " \x7b\n" ++ "\n".intercalate b.lines ++ "\n\x7d\n") ∧
      scopedRules t = String.join ((scopedBlocks t).map fun b =>
        "const " ++ b.name ++ " = styled.div`\n" ++ "\n".intercalate b.lines ++ "\n`\n") ∧
      (flatBlocks t).length = (scopedBlocks t).length ∧
      (∀ (i : Nat) rule element, (flatBlocks t)[i]? = some rule → (scopedBlocks t)[i]? = some element →
        ∃ r, (records t)[i]? = some r ∧ FilledBy r rule element) ∧
      ((scopedBlocks t).map Block.name = (flatBlocks t).map Block.name ↔
        ∀ r ∈ records t, Text.isSignless r.className) := by
  refine ⟨flatRules_eq_join t, scopedRules_eq_join t, ?_, fun i rule element hrule helement => ?_,
    map_name_scopedBlocks_iff t⟩
  · rw [flatBlocks, scopedBlocks, List.length_map, List.length_map]
  · rw [flatBlocks, List.getElem?_map, Option.map_eq_some_iff] at hrule
    obtain ⟨r, hr, rfl⟩ := hrule
    rw [scopedBlocks, List.getElem?_map, hr, Option.map_some, Option.some.injEq] at helement
    exact ⟨r, hr, helement ▸ filledBy r⟩

/-- A tag with a slash in its class name. -/
def slashed : Tag :=
  ⟨{ name := "div", style := ⟨"a/b00", [⟨"width", "10px"⟩]⟩, source := default }, []⟩

/-- Not every scoped block is named as the flat block: the slash stays. -/
theorem not_forall_scopedBlocks_name :
    ¬∀ (t : Tag) (i : Nat) (rule element : Block), (flatBlocks t)[i]? = some rule →
      (scopedBlocks t)[i]? = some element → element.name = rule.name := by
  intro h
  have hname := h slashed 0 ⟨"ab00", ["  width: 10px;"]⟩ ⟨"a/b00", ["  width: 10px;"]⟩ (by decide) (by decide)
  exact absurd hname (by decide)

/-! ## The tree of a scene -/

variable {root : SceneNode} {t : Tag} {unit : LengthUnit} {detection : Detection} {start stop : Counter}

/-- In the tree of a scene all names are the same if no visible layer has a sign in its display name. -/
theorem map_name_scopedBlocks_of_build (hroot : root.visible)
    (hbuilt : Tag.build root unit detection start = (some t, stop))
    (hnames : ∀ n ∈ root.preorder, n.visible → Text.isSignless n.name) :
    (scopedBlocks t).map Block.name = (flatBlocks t).map Block.name := by
  rw [map_name_scopedBlocks_iff]
  intro r hr
  have hproperties := properties_ne_nil_of_mem_records hr
  obtain ⟨n, ctx, number, rfl, ⟨hn, hvisible⟩, hparent⟩ := exists_node_of_mem_records hroot hbuilt hr
  rw [StyleRecord.properties_ofProperties] at hproperties
  rw [StyleRecord.className_ofProperties _ hproperties, SceneNode.isSignless_className]
  split
  · -- An image is named after its parent.
    cases hctx : ctx.parent with
    | none => rfl
    | some parent => exact hnames parent (hparent parent hctx).1 (hparent parent hctx).2
  · rw [hnames n hn hvisible, Bool.or_true]

end Stylesheet

end Handoff
