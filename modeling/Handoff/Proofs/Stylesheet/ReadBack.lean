/-
# Handoff.Proofs.Stylesheet.ReadBack — the reader undoes the flat rules

Writing and reading do not agree on what a blank is: the writer puts spaces and line ends between the
parts of a rule, sanitizing removes its own class from a name, and the reader trims by Unicode. Nothing
depends on that as long as no name and no value holds the character that ends it. Then a declaration is
read back from its line and a rule from its block, with the value trimmed.
-/

import Handoff.Proofs.Text.Blank
import Handoff.Proofs.Text.Front
import Handoff.Stylesheet.Reader
import Handoff.Stylesheet.Rules

namespace Handoff.Stylesheet

open Text (isBlank isSpace skipSpaces skipSpaces_append skipSpaces_cons skipChar_cons takeChar_cons
  takeRun takeRun_append takeRun_cons_of_not many many_lines)

/-! ## What can be read back -/

/-- A declaration that can be read back: its property is made of ASCII letters, ASCII digits and hyphens,
and its value is not blank and does not hold the characters that end it. -/
structure ReadableProperty (p : StyleProperty) : Prop where
  name_ne : p.name ≠ ""
  name : ∀ c ∈ p.name.toList, c.isAlphanum ∨ c = '-'
  value : ∀ c ∈ p.value.toList, c ≠ ';' ∧ c ≠ '\x7d'
  value_ne : ∃ c ∈ p.value.toList, isBlank c = false

/-- A record that can be read back: no braces are left in its name by sanitizing. -/
structure Readable (r : StyleRecord) : Prop where
  name : ∀ c ∈ (Text.sanitize r.className).toList, c ≠ '\x7b' ∧ c ≠ '\x7d'
  properties : ∀ p ∈ r.properties, ReadableProperty p

instance (p : StyleProperty) : Decidable (ReadableProperty p) :=
  decidable_of_iff
    (p.name ≠ "" ∧ p.name.toList.all (fun c => c.isAlphanum || c == '-') ∧
      p.value.toList.all (fun c => c != ';' && c != '\x7d') ∧ p.value.toList.any (fun c => !isBlank c))
    ⟨fun ⟨hne, hname, hvalue, hblank⟩ =>
        ⟨hne, by simpa using hname, by simpa using hvalue, by simpa using hblank⟩,
      fun ⟨hne, hname, hvalue, hblank⟩ =>
        ⟨hne, by simpa using hname, by simpa using hvalue, by simpa using hblank⟩⟩

instance (r : StyleRecord) : Decidable (Readable r) :=
  decidable_of_iff
    ((Text.sanitize r.className).toList.all (fun c => c != '\x7b' && c != '\x7d') ∧
      ∀ p ∈ r.properties, ReadableProperty p)
    ⟨fun ⟨hname, hproperties⟩ => ⟨by simpa using hname, hproperties⟩,
      fun ⟨hname, hproperties⟩ => ⟨by simpa using hname, hproperties⟩⟩

/-- A declaration as the reader gives it. -/
def readDeclaration (p : StyleProperty) : Declaration :=
  ⟨p.name, String.ofList (Text.trim p.value.toList)⟩

/-- The rule of a record as the reader gives it. -/
def readRule (r : StyleRecord) : Rule :=
  ⟨"." ++ Text.sanitize r.className, r.properties.map readDeclaration⟩

/-! ## One declaration -/

theorem takeTrimmed_append {accepts : Char → Bool} {run rest : List Char} {c : Char}
    (hne : Text.trim run ≠ []) (h : ∀ d ∈ run, accepts d) (hc : accepts c = false) :
    takeTrimmed accepts (run ++ c :: rest) = some (Text.trim run, c :: rest) := by
  rw [takeTrimmed, Text.takeWhile_append_cons h hc, Text.dropWhile_append_cons h hc]
  exact if_neg (by simpa using hne)

/-- A property has no spaces. -/
theorem isSpace_of_isPropertyChar {c : Char} (h : isPropertyChar c) : isSpace c = false := by
  by_contra hspace
  simp only [isSpace, Bool.not_eq_false, Bool.or_eq_true, beq_iff_eq] at hspace
  rcases hspace with ((rfl | rfl) | rfl) | rfl <;> revert h <;> decide

/-- A value is read up to its semicolon and loses the blanks at its ends, some of them as spaces in front
of it. -/
theorem takeTrimmed_value {p : StyleProperty} (h : ReadableProperty p) (rest : List Char) :
    takeTrimmed isValueChar (skipSpaces (' ' :: (p.value.toList ++ ';' :: rest))) =
      some (Text.trim p.value.toList, ';' :: rest) := by
  obtain ⟨c, hc, hblank⟩ := h.value_ne
  have hskip : skipSpaces (' ' :: (p.value.toList ++ ';' :: rest)) =
      skipSpaces p.value.toList ++ ';' :: rest := by
    rw [← List.singleton_append, skipSpaces_append (List.forall_mem_singleton.mpr rfl)]
    exact Text.dropWhile_append_of_mem hc (Text.isSpace_of_isBlank hblank) _
  have hchars : ∀ d ∈ skipSpaces p.value.toList, isValueChar d := by
    intro d hd
    simpa [isValueChar] using h.value d ((List.dropWhile_suffix isSpace).mem hd)
  have hne : Text.trim (skipSpaces p.value.toList) ≠ [] := by
    rw [Text.trim_skipSpaces]
    exact List.ne_nil_of_mem (Text.mem_trim hc hblank)
  rw [hskip, takeTrimmed_append hne hchars rfl, Text.trim_skipSpaces]

/-- The text of a declaration, with the space behind the colon that belongs to neither part. -/
theorem toList_declarationLine (p : StyleProperty) (rest : List Char) :
    (declarationLine p).toList ++ rest =
      [' ', ' '] ++ (p.name.toList ++ ':' :: ' ' :: (p.value.toList ++ ';' :: rest)) := by
  simp [declarationLine]

/-- A declaration is read back from its line. -/
theorem takeDeclaration_line {p : StyleProperty} (h : ReadableProperty p) {lead : List Char}
    (hlead : ∀ c ∈ lead, isSpace c) (rest : List Char) :
    takeDeclaration (lead ++ ((declarationLine p).toList ++ rest)) =
      some (readDeclaration p, rest) := by
  have hname : ∀ c ∈ p.name.toList, isPropertyChar c := by
    intro c hc
    simpa [isPropertyChar] using h.name c hc
  have hne : p.name.toList ≠ [] := by simpa using h.name_ne
  have hstart : skipSpaces (p.name.toList ++ ':' :: ' ' :: (p.value.toList ++ ';' :: rest)) =
      p.name.toList ++ ':' :: ' ' :: (p.value.toList ++ ';' :: rest) := by
    obtain ⟨c, cs, hcs⟩ := List.exists_cons_of_ne_nil hne
    rw [hcs, List.cons_append]
    exact skipSpaces_cons (isSpace_of_isPropertyChar (hname c (by simp [hcs]))) _
  rw [takeDeclaration, toList_declarationLine, skipSpaces_append hlead,
    skipSpaces_append (by simp [isSpace]), hstart, takeRun_append hne hname rfl]
  simp only [Option.bind_eq_bind, Option.bind_some, skipSpaces_cons (c := ':') rfl, takeChar_cons,
    takeTrimmed_value h, skipChar_cons, readDeclaration, String.ofList_toList]
  rfl

/-- Behind the last declaration there is none. -/
theorem takeDeclaration_brace {lead : List Char} (hlead : ∀ c ∈ lead, isSpace c) (rest : List Char) :
    takeDeclaration (lead ++ '\x7d' :: rest) = none := by
  rw [takeDeclaration, skipSpaces_append hlead, skipSpaces_cons rfl, takeRun_cons_of_not rfl]
  rfl

/-! ## One rule -/

/-- The text of a record's selector. -/
def selectorText (r : StyleRecord) : List Char :=
  '.' :: (Text.sanitize r.className).toList

/-- The text of a rule without the end of its last line. -/
def ruleText (r : StyleRecord) : List Char :=
  selectorText r ++
    ([' ', '\x7b', '\n'] ++
      (r.properties.flatMap (fun p => (declarationLine p).toList ++ ['\n']) ++ ['\x7d']))

/-- Lines between line ends are lines that end in one. -/
theorem toList_intercalate_newline {lines : List String} (h : lines ≠ []) :
    ("\n".intercalate lines).toList ++ ['\n'] = lines.flatMap fun s => s.toList ++ ['\n'] := by
  induction lines with
  | nil => exact absurd rfl h
  | cons s lines ih =>
    cases lines with
    | nil => simp
    | cons s' lines =>
      rw [List.flatMap_cons, ← ih (List.cons_ne_nil _ _), String.intercalate_cons_cons]
      simp

/-- A block of a record with declarations is written as its rule and the end of a line. -/
theorem toList_flatText {r : StyleRecord} (h : r.properties ≠ []) :
    (flatBlock r).flatText.toList = ruleText r ++ ['\n'] := by
  have hlines : declarationLines r ≠ [] := by simpa [declarationLines] using h
  have htext := toList_intercalate_newline hlines
  rw [declarationLines, List.flatMap_map] at htext
  rw [ruleText, ← htext]
  simp [Block.flatText, flatBlock, declarationLines, selectorText]

/-- A selector is read up to the brace, without the space in front of it. -/
theorem takeTrimmed_selector {r : StyleRecord} (h : Readable r) (rest : List Char) :
    takeTrimmed isSelectorChar (selectorText r ++ [' '] ++ '\x7b' :: rest) =
      some (selectorText r, '\x7b' :: rest) := by
  have hblank : ∀ c ∈ selectorText r, isBlank c = false := by
    intro c hc
    rcases List.mem_cons.mp hc with rfl | hc
    · rfl
    · exact Text.isBlank_of_mem_sanitize hc
  have htrim : Text.trim (selectorText r ++ [' ']) = selectorText r := by
    rw [selectorText, Text.trim_append List.mem_cons_self rfl (List.forall_mem_singleton.mpr rfl)]
    exact Text.trim_eq_self hblank
  have hchars : ∀ c ∈ selectorText r ++ [' '], isSelectorChar c := by
    intro c hc
    rw [selectorText, List.mem_append, List.mem_cons, List.mem_singleton] at hc
    rcases hc with (rfl | hc) | rfl
    · rfl
    · simpa [isSelectorChar] using h.name c hc
    · rfl
  have hne : Text.trim (selectorText r ++ [' ']) ≠ [] := by
    rw [htrim]
    exact List.cons_ne_nil _ _
  rw [takeTrimmed_append hne hchars rfl, htrim]

/-- A rule is read back from its block. -/
theorem takeRule_ruleText {r : StyleRecord} (h : Readable r) {lead : List Char}
    (hlead : ∀ c ∈ lead, isSpace c) (rest : List Char) :
    takeRule (lead ++ (ruleText r ++ rest)) = some (readRule r, rest) := by
  have hsplit : ruleText r ++ rest =
      selectorText r ++ [' '] ++ '\x7b' :: (['\n'] ++
        (r.properties.flatMap (fun p => (declarationLine p).toList ++ ['\n']) ++ '\x7d' :: rest)) := by
    simp [ruleText]
  have hstart : skipSpaces (ruleText r ++ rest) = ruleText r ++ rest :=
    skipSpaces_cons (c := '.') rfl _
  -- The end of the first line stands in front of the declarations.
  obtain ⟨left, hleft, hmany⟩ := many_lines r.properties ('\x7d' :: rest)
    (fun p hp _ rest hlead => takeDeclaration_line (h.properties p hp) hlead rest)
    (fun p _ => by simp [declarationLine])
    (fun _ hlead => takeDeclaration_brace hlead rest) Text.isSpace_of_mem_newline
  rw [takeRule, skipSpaces_append hlead, hstart, hsplit, takeTrimmed_selector h]
  -- What is left of the lines is the end of the last one, in front of the brace.
  simp only [Option.bind_eq_bind, Option.bind_some, takeChar_cons, hmany, skipSpaces_append hleft]
  rw [skipSpaces_cons rfl, takeChar_cons]
  simp [readRule, selectorText, String.ofList_cons]

/-- Behind the last rule there is none. -/
theorem takeRule_nil {lead : List Char} (hlead : ∀ c ∈ lead, isSpace c) :
    takeRule (lead ++ []) = none := by
  rw [takeRule, skipSpaces_append hlead]
  rfl

/-! ## Records -/

mutual

/-- Every record has declarations. -/
theorem properties_ne_nil_of_mem_records {r : StyleRecord} :
    {t : Tag} → r ∈ records t → r.properties ≠ []
  | ⟨head, children⟩, h => by
    rw [records] at h
    split at h
    · cases h
    · split at h
      · exact properties_ne_nil_of_mem_recordsOfList h
      next hsome =>
        rcases List.mem_cons.mp h with rfl | h
        · simpa [StyleRecord.isEmpty] using hsome
        · exact properties_ne_nil_of_mem_recordsOfList h

theorem properties_ne_nil_of_mem_recordsOfList {r : StyleRecord} :
    {ts : List Tag} → r ∈ recordsOfList ts → r.properties ≠ []
  | [], h => by cases h
  | t :: ts, h => by
    rw [recordsOfList, List.mem_append] at h
    rcases h with h | h
    · exact properties_ne_nil_of_mem_records h
    · exact properties_ne_nil_of_mem_recordsOfList h

end

/-! ## Whole sheets -/

/-- Rules are read back one by one. -/
theorem readRules_flatMap {rs : List StyleRecord} (h : ∀ r ∈ rs, Readable r) :
    readRules (rs.flatMap fun r => ruleText r ++ ['\n']) = .ok (rs.map readRule) := by
  obtain ⟨left, hleft, hmany⟩ := many_lines rs []
    (fun r hr _ rest hlead => takeRule_ruleText (h r hr) hlead rest)
    (fun r _ => by simp [ruleText, selectorText]) (fun _ hlead => takeRule_nil hlead) (List.forall_mem_nil _)
  have hrest : skipSpaces (left ++ []) = [] := skipSpaces_append hleft []
  rw [List.nil_append, List.append_nil] at hmany
  simp only [readRules, hmany, hrest]
  rfl

theorem toList_flatRules (t : Tag) :
    (flatRules t).toList = (records t).flatMap fun r => ruleText r ++ ['\n'] := by
  rw [flatRules, String.toList_join, List.flatMap_map, List.flatMap_def, List.flatMap_def,
    List.map_congr_left fun r hr => toList_flatText (properties_ne_nil_of_mem_records hr)]

/-- **The reader undoes the flat rules.** If the records of a tag tree can be read back, reading the flat
rules of the tree succeeds and gives one rule for each record, in the order of the records, with the
values trimmed. -/
theorem rulesOf_flatRules {t : Tag} (h : ∀ r ∈ records t, Readable r) :
    rulesOf (flatRules t) = .ok ((records t).map readRule) := by
  rw [rulesOf, toList_flatRules, readRules_flatMap h]
  rfl

/-- A card with a picture, an instance that is styled elsewhere, and a box without declarations around a
text. -/
def picture : Tag :=
  let tag (className : String) (properties : List StyleProperty) (isInstance : Bool)
      (children : List Tag) : Tag :=
    ⟨{ name := "div", isInstance, style := ⟨className, properties⟩, source := default }, children⟩
  tag "Card #1" [⟨"background-image", " url(https://a/\x7bb)\n"⟩, ⟨"gap", "4px"⟩] false
    [tag "Button\x7d" [⟨"color", ""⟩] true [], tag "" [] false [tag "text1" [⟨"color", "red"⟩] false []]]

/-- The brace and the line end inside of a value do no harm, and the instance need not be readable. -/
theorem rulesOf_flatRules_picture :
    rulesOf (flatRules picture) = .ok
      [⟨".Card1", [⟨"background-image", "url(https://a/\x7bb)"⟩, ⟨"gap", "4px"⟩]⟩,
        ⟨".text1", [⟨"color", "red"⟩]⟩] := by
  have hreadable : ∀ r ∈ records picture, Readable r := by decide
  have hrules : (records picture).map readRule =
      [⟨".Card1", [⟨"background-image", "url(https://a/\x7bb)"⟩, ⟨"gap", "4px"⟩]⟩,
        ⟨".text1", [⟨"color", "red"⟩]⟩] := by
    decide
  rw [rulesOf_flatRules hreadable, hrules]

end Handoff.Stylesheet
