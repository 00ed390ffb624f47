/-
# Handoff.Proofs.Markup.Written — how a line stands in the text

The statements about lookups and references are about lines, and a line says what it looks up and which element it
has. Here it is said how that stands in the text of the line, letter by letter, so that nothing about the text has
to be believed of the writer: behind the margin, a line that begins a tag has the name of its element, then the
class that it looks up, if it looks one up, and then the attributes of the tag; a line that ends a tag has the
name of its element only.
-/

import Handoff.Proofs.Markup.Placed

namespace Handoff.Markup

variable {dialect : Dialect} {t u : Tag}

/-! ## Elements -/

/-- A class is looked up by a property access: with brackets if its name asks for them, and with a dot otherwise. -/
theorem styleLookup_eq (c : String) :
    styleLookup c = if Text.needsBrackets c then "styles[\"" ++ c ++ "\"]" else "styles." ++ c := by
  rw [styleLookup]
  split
  · rw [quoted, ← String.toList_inj]
    simp
  · rfl

/-- The lookup stands between braces, behind the name of the element and in front of the attributes. -/
theorem Element.text_eq (e : Element) :
    e.text = e.name ++
      (match e.styleClass with
        | some c => " className=\x7b" ++
            (if Text.needsBrackets c then "styles[\"" ++ c ++ "\"]" else "styles." ++ c) ++ "\x7d"
        | none => "") ++
      String.join (e.attributes.map attributeText) := by
  rw [Element.text]
  congr 2
  cases e.styleClass with
  | none => rfl
  | some c =>
    rw [classText, braced, styleLookup_eq, ← String.toList_inj]
    simp

/-- An empty element that looks up nothing is its name and its attributes. -/
theorem text_empty (level : Nat) (name : String) (attributes : List Attribute) :
    Line.text ⟨level, .empty ⟨name, none, attributes⟩⟩ =
      String.ofList (List.replicate (4 + 2 * level) ' ') ++ "<" ++ name ++
        String.join (attributes.map attributeText) ++ " />" := by
  rw [Line.text, indent, LineForm.text, Element.text_eq]
  simp only [String.append_assoc, String.empty_append]

/-! ## Lines -/

/-- The name of the element that a tag is written as. -/
def writtenName (dialect : Dialect) (h : Tag.Head) : String :=
  if h.isInstance then instanceName h else elementName dialect h

/-- A line that begins a tag, as it is written. -/
def PlacedLine.Begins (dialect : Dialect) (u : Tag) (l : PlacedLine) : Prop :=
  ∃ rest,
    l.line.text = String.ofList (List.replicate (4 + 2 * l.position.length) ' ') ++ "<" ++
      writtenName dialect u.head ++
      (match l.line.form.styleClass? with
        | some c => " className=\x7b" ++
            (if Text.needsBrackets c then "styles[\"" ++ c ++ "\"]" else "styles." ++ c) ++ "\x7d"
        | none => "") ++
      String.join (u.head.attributes.map attributeText) ++ rest ∧
    (rest = ">" ∨ rest = " />" ∨
      ∃ content, rest = ">" ++ content ++ "</" ++ writtenName dialect u.head ++ ">")

/-- A line that ends a tag, as it is written. It looks up nothing. -/
def PlacedLine.Ends (dialect : Dialect) (u : Tag) (l : PlacedLine) : Prop :=
  l.line.form.styleClass? = none ∧
    l.line.text = String.ofList (List.replicate (4 + 2 * l.position.length) ' ') ++ "</" ++
      writtenName dialect u.head ++ ">"

theorem begins_of_element {l : PlacedLine} {e : Element} {rest : String}
    (hlevel : l.line.level = l.position.length) (htext : l.line.form.text = "<" ++ e.text ++ rest)
    (hclass : l.line.form.styleClass? = e.styleClass) (hname : e.name = writtenName dialect u.head)
    (hattributes : e.attributes = u.head.attributes)
    (hrest : rest = ">" ∨ rest = " />" ∨ ∃ content, rest = ">" ++ content ++ "</" ++ e.name ++ ">") :
    l.Begins dialect u := by
  rw [hname] at hrest
  refine ⟨rest, ?_, hrest⟩
  rw [Line.text, indent, hlevel, htext, hclass, ← hattributes, ← hname, Element.text_eq]
  simp only [String.append_assoc]

/-- The first line of a tag begins it, whichever of its three forms it has. -/
theorem begins_of_firstLine {l : PlacedLine} (h : l.line = firstLine dialect l.position.length u) :
    l.Begins dialect u := by
  obtain ⟨p, line⟩ := l
  obtain rfl : line = firstLine dialect p.length u := h
  by_cases hinstance : u.head.isInstance
  · have hname : instanceName u.head = writtenName dialect u.head := (if_pos hinstance).symm
    rw [firstLine, if_pos hinstance]
    exact begins_of_element rfl rfl rfl hname rfl (.inr (.inl rfl))
  · have hname : elementName dialect u.head = writtenName dialect u.head := (if_neg hinstance).symm
    by_cases hleaf : u.children.isEmpty
    · rw [firstLine, if_neg hinstance, if_pos hleaf, leafLine]
      split
      · have hrest : (LineForm.characters (elementOf dialect u.head) (u.head.characters.getD "")).text =
            "<" ++ (elementOf dialect u.head).text ++
              (">" ++ u.head.characters.getD "" ++ "</" ++ (elementOf dialect u.head).name ++ ">") := by
          simp only [LineForm.text, String.append_assoc]
        exact begins_of_element rfl hrest rfl hname rfl (.inr (.inr ⟨_, rfl⟩))
      · exact begins_of_element rfl rfl rfl hname rfl (.inr (.inl rfl))
    · rw [firstLine, if_neg hinstance, if_neg hleaf]
      exact begins_of_element rfl rfl rfl hname rfl (.inl rfl)

/-- Only a tag of several lines has a last one, and such a tag is no instance. -/
theorem ends_of_lastLine {l : PlacedLine} (hopens : ¬isOneLine u)
    (h : l.line = lastLine dialect l.position.length u) : l.Ends dialect u := by
  obtain ⟨p, line⟩ := l
  obtain rfl : line = lastLine dialect p.length u := h
  have hinstance : ¬u.head.isInstance := by
    rw [isOneLine, Bool.or_eq_true, not_or] at hopens
    exact hopens.1
  refine ⟨rfl, ?_⟩
  rw [writtenName, if_neg hinstance]
  show indent p.length ++ ("</" ++ elementName dialect u.head ++ ">") = _
  simp only [indent, String.append_assoc]

/-- What a line looks up is the class of the tag at its position. -/
theorem exists_tag_of_styleClass? {l : PlacedLine} {c : String} (h : l ∈ placedLines dialect 0 t)
    (hclass : l.line.form.styleClass? = some c) :
    ∃ u, t.at? l.position = some u ∧ styleClass? dialect u.head = some c := by
  obtain ⟨u, hu, -, hfirst | ⟨-, hlast⟩⟩ := of_mem_placedLines h
  · refine ⟨u, hu, ?_⟩
    rw [hfirst, styleClass?_firstLine] at hclass
    split at hclass
    · cases hclass
    · exact hclass
  · -- The last line of a tag only names the element.
    rw [hlast] at hclass
    cases hclass

/-- Every line of a body begins or ends the tag at its position, and is written accordingly. -/
theorem begins_or_ends {l : PlacedLine} (h : l ∈ placedLines dialect 0 t) :
    ∃ u, t.at? l.position = some u ∧ (l.Begins dialect u ∨ l.Ends dialect u) := by
  obtain ⟨u, hu, -, hline⟩ := of_mem_placedLines h
  rw [Nat.zero_add] at hline
  refine ⟨u, hu, hline.imp begins_of_firstLine ?_⟩
  rintro ⟨hopens, hlast⟩
  exact ends_of_lastLine hopens hlast

/-- A class that a line looks up stands in its text. -/
theorem exists_text_of_styleClass? {l : PlacedLine} {c : String} (h : l ∈ placedLines dialect 0 t)
    (hclass : l.line.form.styleClass? = some c) :
    ∃ front rest, l.line.text = front ++ " className=\x7b" ++ styleLookup c ++ "\x7d" ++ rest := by
  obtain ⟨u, -, ⟨rest, htext, -⟩ | ⟨hnone, -⟩⟩ := begins_or_ends h
  · rw [hclass] at htext
    refine ⟨String.ofList (List.replicate (4 + 2 * l.position.length) ' ') ++ "<" ++
      writtenName dialect u.head, String.join (u.head.attributes.map attributeText) ++ rest, ?_⟩
    rw [htext, styleLookup_eq]
    simp only [String.append_assoc]
  · rw [hnone] at hclass
    cases hclass

end Handoff.Markup
