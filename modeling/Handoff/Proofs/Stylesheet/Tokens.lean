/-
# Handoff.Proofs.Stylesheet.Tokens — utility classes, token by token

A utility sheet is one text of classes with spaces between them, and whoever reads it splits it at its blanks.
The classes of a declaration are tokens because of the values that nodes declare, so the tokens of a sheet are
these classes again: they align with the declarations of the flat rules that they were made from.
-/

import Handoff.Proofs.Style.Compact

namespace Handoff.Stylesheet

open Text (IsToken)

/-! ## Declarations and their classes -/

variable {p : StyleProperty}

/-- What a node declares is compact when it is read back. -/
theorem isCompact_readDeclaration {n : SceneNode} {ctx : StyleContext} (hp : p ∈ n.declarations ctx)
    (hreadable : ReadableProperty p) : (readDeclaration p).IsCompact := by
  have htrim {c : Char} (hc : c ∈ (readDeclaration p).value.toList) : c ∈ p.value.toList := by
    rw [readDeclaration, String.toList_ofList] at hc
    exact mem_of_mem_trim hc
  refine ⟨fun c hc => ?_, fun hverbatim c hc => ?_, fun hradius hspace => ?_⟩
  · have hplain : Text.isPlain c := by
      rcases hreadable.name c hc with halnum | rfl
      · simp [Text.isPlain, halnum]
      · rfl
    exact Text.isBlank_of_isPlain hplain
  · exact ((n.allCompact_declarations ctx p hp).verbatim hverbatim).isToken.unbroken c (htrim hc)
  · rcases SceneNode.of_mem_declarations hp with hregular | hfont
    · have htext : Text.IsPlainText (readDeclaration p).value := fun c hc =>
        hregular.value.text c (htrim hc)
      exact htext.isUnbroken hspace
    · -- No font family is declared as a radius.
      cases n with
      | text layer run =>
        rw [SceneNode.fontRules, TextRun.fontRules] at hfont
        split at hfont
        · cases hfont
        · rw [List.mem_singleton.mp hfont] at hradius
          simp [readDeclaration] at hradius
      | _ => cases hfont

/-- The number of classes that a declaration comes to: one, and for a padding one for each of its parts
between spaces. -/
def tokenCount (p : StyleProperty) : Nat :=
  if p.name = "padding" then (p.value.toList.splitOn ' ').length else 1

theorem length_utilityClasses (h : p.IsCompact) :
    (utilityClasses (readDeclaration p)).length = tokenCount p := by
  rw [tokenCount]
  split
  next hpadding =>
    obtain ⟨lengths, hvalue, hlength, hlengths⟩ := h.padding hpadding
    have htokens : ∀ l ∈ lengths, IsToken l := fun l hl => (hlengths l hl).isToken
    have hwords : Text.wordsOf (readDeclaration p).value = lengths := by
      rw [wordsOf_readDeclaration, hvalue, Text.wordsOf_intercalate_of_isToken htokens]
    have hne : lengths ≠ [] := by
      rintro rfl
      simp at hlength
    rw [utilityClasses_of_padding hpadding, length_paddingClasses (hwords.symm ▸ hlength), hwords, hvalue,
      Text.splitOn_intercalate_of_isToken hne htokens, List.length_map]
  next hother => exact length_utilityClasses_of_ne hother

/-! ## Sheets -/

variable {t : Tag} {root : SceneNode} {unit : LengthUnit} {detection : Detection} {start stop : Counter}

/-- The classes of all declarations of a tag tree, record by record. -/
def classesOf (t : Tag) : List String :=
  (records t).flatMap fun r => r.properties.flatMap fun p => utilityClasses (readDeclaration p)

/-- A sheet of tokens is cut into these tokens. -/
theorem wordsOf_sheet (hreadable : ∀ r ∈ records t, Readable r) (htokens : ∀ c ∈ classesOf t, IsToken c) :
    Text.wordsOf (sheet toUtility .utility t) = classesOf t := by
  have hrecord (r : StyleRecord) (hr : r ∈ records t) :
      Text.wordsOf (ruleClasses (readRule r)).classes =
        r.properties.flatMap fun p => utilityClasses (readDeclaration p) := by
    rw [ruleClasses, readRule, List.flatMap_map]
    refine Text.wordsOf_intercalate_of_isToken fun c hc => htokens c ?_
    exact List.mem_flatMap.mpr ⟨r, hr, hc⟩
  have htext : sheet toUtility .utility t =
      " ".intercalate ((records t).map fun r => (ruleClasses (readRule r)).classes) := by
    rw [sheet, toUtility_flatRules_of_readable hreadable, Outcome.text, List.map_map]
    rfl
  rw [htext, Text.wordsOf_intercalate, List.flatMap_map, List.flatMap_def, List.map_congr_left hrecord,
    ← List.flatMap_def, classesOf]

/-- The records of a built tree can be read back if the layers have no braces in their names. -/
theorem readable_of_names (hroot : root.visible)
    (hnames : ∀ n ∈ root.preorder, n.visible → isBraceless n.name)
    (hfonts : ∀ n ∈ root.preorder, n.visible → n.hasLegibleFont)
    (hbuilt : Tag.build root unit detection start = (some t, stop)) : ∀ r ∈ records t, Readable r := by
  intro r hr
  apply readable_of_build hroot hfonts hbuilt hr
  have hproperties := properties_ne_nil_of_mem_records hr
  obtain ⟨n, ctx, number, rfl, ⟨hn, hvisible⟩, hparent⟩ := exists_node_of_mem_records hroot hbuilt hr
  rw [StyleRecord.properties_ofProperties] at hproperties
  rw [StyleRecord.className_ofProperties _ hproperties]
  refine isBraceless_sanitize (isBraceless_className (hnames n hn hvisible) (fun parent h => ?_) number)
  exact hnames parent (hparent parent h).1 (hparent parent h).2

/-- **A utility sheet aligns with the declarations, token by token.** Say that no visible layer has a brace in
its display name and that the font families of the visible texts are legible. Then the flat rules of the tree are
read back record by record; cut at its blanks, the utility sheet gives the classes of their declarations, in
order; and every declaration comes to one class, or to as many as its value has parts if it is a padding. -/
theorem wordsOf_sheet_build (unit : LengthUnit) (detection : Detection) (start : Counter)
    (hroot : root.visible) (hnames : ∀ n ∈ root.preorder, n.visible → isBraceless n.name)
    (hfonts : ∀ n ∈ root.preorder, n.visible → n.hasLegibleFont) :
    ∃ t stop, Tag.build root unit detection start = (some t, stop) ∧
      rulesOf (flatRules t) = .ok ((records t).map readRule) ∧
      Text.wordsOf (sheet toUtility .utility t) = classesOf t ∧
      ∀ r ∈ records t, ∀ p ∈ r.properties, (utilityClasses (readDeclaration p)).length = tokenCount p := by
  obtain ⟨t, stop, hbuilt⟩ := Tag.exists_build unit detection start hroot
  have hreadable := readable_of_names hroot hnames hfonts hbuilt
  have hdeclared : ∀ r ∈ records t, ∀ p ∈ r.properties,
      ∃ (n : SceneNode) (ctx : StyleContext), p ∈ n.declarations ctx := by
    intro r hr p hp
    obtain ⟨n, ctx, number, rfl, -⟩ := exists_node_of_mem_records hroot hbuilt hr
    rw [StyleRecord.properties_ofProperties] at hp
    exact ⟨n, ctx, hp⟩
  have htokens : ∀ c ∈ classesOf t, IsToken c := by
    intro c hc
    obtain ⟨r, hr, hc⟩ := List.mem_flatMap.mp hc
    obtain ⟨p, hp, hc⟩ := List.mem_flatMap.mp hc
    obtain ⟨n, ctx, hpn⟩ := hdeclared r hr p hp
    exact isToken_of_mem_utilityClasses (isCompact_readDeclaration hpn ((hreadable r hr).properties p hp)) hc
  refine ⟨t, stop, hbuilt, ?_, wordsOf_sheet hreadable htokens, fun r hr p hp => ?_⟩
  · rw [rulesOf, toList_flatRules, readRules_flatMap hreadable]
    rfl
  · obtain ⟨n, ctx, hpn⟩ := hdeclared r hr p hp
    exact length_utilityClasses (n.allCompact_declarations ctx p hpn)

/-- A row with a text whose font family is two words, and a text that is not shown: its name has a brace and
its font family is blank. -/
def captionedRow : SceneNode :=
  .container .frame { name := "Row" }
    { layoutMode := .horizontal, mainSizing := .auto, crossSizing := .auto }
    [.text { name := "Caption" } { fontSize := 12, fontName := { family := "Noto Sans" } },
      .text { name := "Draft \x7b", visible := false } { fontName := { family := " " } }]

/-- The blank in the font family is not in its class. -/
theorem wordsOf_sheet_build_captionedRow :
    captionedRow.visible ∧ (∀ n ∈ captionedRow.preorder, n.visible → isBraceless n.name) ∧
    (∀ n ∈ captionedRow.preorder, n.visible → n.hasLegibleFont) ∧
    ∃ t stop, Tag.build captionedRow .px .identify {} = (some t, stop) ∧
      Text.wordsOf (sheet toUtility .utility t) =
        ["flex", "flex-row", "justify-start", "items-start",
          "text-left", "align-top", "text-[12px]", "font-['Noto_Sans']", "leading-normal"] := by
  have hroot : captionedRow.visible := by decide
  have hnames : ∀ n ∈ captionedRow.preorder, n.visible → isBraceless n.name := by decide
  have hfonts : ∀ n ∈ captionedRow.preorder, n.visible → n.hasLegibleFont := by decide
  obtain ⟨t, stop, hbuilt, -, hwords, -⟩ := wordsOf_sheet_build .px .identify {} hroot hnames hfonts
  have hclasses : (Tag.build captionedRow .px .identify {}).1.map classesOf = some
      ["flex", "flex-row", "justify-start", "items-start",
        "text-left", "align-top", "text-[12px]", "font-['Noto_Sans']", "leading-normal"] := by
    decide +kernel
  rw [hbuilt, Option.map_some, Option.some.injEq] at hclasses
  exact ⟨hroot, hnames, hfonts, t, stop, hbuilt, hwords.trans hclasses⟩

end Handoff.Stylesheet
