/-
# Handoff.Proofs.Markup.Reading — what a line is, read off its text

A line has one of four forms, and its text does not say which. A reader of the text can still tell apart
what it needs: a line that starts with `</` closes an element, any other line with a slash in it is an
element of its own, and a line without one opens an element, whose name ends at the first space. That works
because no name and no class of an element has a slash or a space in it, whatever the layers are called, so
every slash in front of a content or an attribute is one that the form has put there.
-/

import Handoff.Markup.Body
import Handoff.Proofs.Text.Uppercase

namespace Handoff.Markup

/-! ## Reading -/

/-- What a line is to a reader of its text. -/
inductive Reading where
  | opening (name : String)
  | closing (name : String)
  | leaf
  deriving DecidableEq

/-- The number of spaces that a line begins with. -/
def margin (line : String) : Nat :=
  (line.toList.takeWhile (· == ' ')).length

/-- What the characters behind the margin are. -/
def readForm (cs : List Char) : Reading :=
  if ['<', '/'].isPrefixOf cs then .closing (String.ofList (cs.drop 2).dropLast)
  else if '/' ∈ cs then .leaf
  else .opening (String.ofList ((cs.drop 1).dropLast.takeWhile (· != ' ')))

def reading (line : String) : Reading :=
  readForm (line.toList.dropWhile (· == ' '))

/-- What a reader should take each form for. -/
def LineForm.reading : LineForm → Reading
  | .opening element => .opening element.name
  | .closing name => .closing name
  | .empty _ => .leaf
  | .characters _ _ => .leaf

/-! ## The margin -/

theorem exists_text_eq_cons (form : LineForm) : ∃ cs, form.text.toList = '<' :: cs := by
  cases form <;> simp [LineForm.text]

/-- The margin ends where the form begins. -/
theorem margin_text (l : Line) : margin l.text = 4 + 2 * l.level := by
  obtain ⟨cs, hcs⟩ := exists_text_eq_cons l.form
  rw [margin, Line.text, indent, String.toList_append, String.toList_ofList, hcs,
    List.takeWhile_append_of_pos (by simp), List.takeWhile_cons_of_neg (by decide), List.append_nil,
    List.length_replicate]

theorem reading_text_eq (l : Line) : reading l.text = readForm l.form.text.toList := by
  obtain ⟨cs, hcs⟩ := exists_text_eq_cons l.form
  rw [reading, Line.text, indent, String.toList_append, String.toList_ofList, hcs,
    List.dropWhile_append_of_pos (by simp), List.dropWhile_cons_of_neg (by decide)]

/-! ## Clean elements -/

/-- An element whose name and class have none of the signs that a reader goes by. -/
structure Element.IsClean (e : Element) : Prop where
  noSpace : ' ' ∉ e.name.toList
  noSlash : '/' ∉ e.name.toList
  noSlash_class : ∀ className ∈ e.styleClass, '/' ∉ className.toList

theorem space_not_mem_sanitize (name : String) : ' ' ∉ (Text.sanitize name).toList :=
  Text.not_mem_sanitize rfl name

theorem slash_not_mem_sanitize (name : String) : '/' ∉ (Text.sanitize name).toList :=
  Text.not_mem_sanitize rfl name

/-- The words that elements are called by whatever their layers are called. -/
def fixedNames : List String :=
  ["p", "img", "section", "article", "div", "Text"]

theorem guessElement_mem_fixedNames (name : String) : guessElement name ∈ fixedNames := by
  rw [guessElement]
  split_ifs <;> decide

/-- The name of an element is a fixed word or a sanitized name. -/
theorem elementName_cases (dialect : Dialect) (h : Tag.Head) :
    elementName dialect h ∈ fixedNames ∨ ∃ name, elementName dialect h = Text.sanitize name := by
  rw [elementName]
  split
  · left
    split
    · decide
    · split
      · decide
      · exact guessElement_mem_fixedNames _
  · split
    · left
      decide
    · exact .inr ⟨_, rfl⟩

theorem isClean_elementOf (dialect : Dialect) (h : Tag.Head) : (elementOf dialect h).IsClean := by
  have hfixed : ∀ name ∈ fixedNames, ' ' ∉ name.toList ∧ '/' ∉ name.toList := by decide
  have hname : ' ' ∉ (elementName dialect h).toList ∧ '/' ∉ (elementName dialect h).toList := by
    rcases elementName_cases dialect h with hword | ⟨name, hname⟩
    · exact hfixed _ hword
    · rw [hname]
      exact ⟨space_not_mem_sanitize name, slash_not_mem_sanitize name⟩
  refine ⟨hname.1, hname.2, fun className hclass => ?_⟩
  rw [elementOf, styleClass?] at hclass
  split at hclass
  · cases hclass
    exact slash_not_mem_sanitize _
  · cases hclass

theorem isClean_instanceElement (h : Tag.Head) : (instanceElement h).IsClean where
  noSpace := Text.not_mem_capitalize (space_not_mem_sanitize _) (by decide) (by decide)
  noSlash := Text.not_mem_capitalize (slash_not_mem_sanitize _) (by decide) (by decide)
  noSlash_class := fun _ hclass => by cases hclass

/-! ## Forms -/

/-- What a reader relies on: clean elements, and no attributes where a line opens one. -/
def LineForm.IsReadable : LineForm → Prop
  | .opening element => element.IsClean ∧ element.attributes = []
  | .closing _ => True
  | .empty element => element.IsClean
  | .characters element _ => element.IsClean

theorem slash_not_mem_classText {styleClass : Option String}
    (h : ∀ className ∈ styleClass, '/' ∉ className.toList) : '/' ∉ (classText styleClass).toList := by
  cases styleClass with
  | none => simp [classText]
  | some className =>
    have hclass := h className rfl
    rw [classText, braced, styleLookup, quoted]
    split <;> simp [hclass]

section Front

variable {c : Char} {cs ds : List Char}

theorem head?_append_ne (hcs : cs.head? ≠ some c) (hds : ds.head? ≠ some c) :
    (cs ++ ds).head? ≠ some c := by
  cases cs with
  | nil => exact hds
  | cons d cs => exact hcs

theorem head?_ne_of_not_mem (h : c ∉ cs) : cs.head? ≠ some c :=
  fun hhead => h (List.mem_of_mem_head? hhead)

/-- Not a closing line. -/
theorem isPrefixOf_slash_eq_false (h : cs.head? ≠ some '/') :
    ['<', '/'].isPrefixOf ('<' :: cs) = false := by
  cases cs with
  | nil => rfl
  | cons d cs =>
    have hne : ('/' == d) = false := by
      rw [beq_eq_false_iff_ne]
      rintro rfl
      exact h rfl
    simp [List.isPrefixOf, hne]

end Front

/-- Behind its name an element goes on with a space, if at all. -/
theorem head?_text_ne {e : Element} (h : e.IsClean) : e.text.toList.head? ≠ some '/' := by
  have hclass : (classText e.styleClass).toList.head? ≠ some '/' := by
    cases e.styleClass <;> simp [classText]
  have hattributes : (String.join (e.attributes.map attributeText)).toList.head? ≠ some '/' := by
    cases hlist : e.attributes with
    | nil => simp
    | cons a as =>
      rw [List.map_cons, String.join_cons, String.toList_append]
      have ha : ∃ ds, (attributeText a).toList = ' ' :: ds := by
        rw [attributeText]
        split <;> simp
      obtain ⟨ds, hds⟩ := ha
      simp [hds]
  -- Each of the three parts may be empty, so the first character may come from any of them.
  rw [Element.text, String.toList_append, String.toList_append]
  exact head?_append_ne (head?_append_ne (head?_ne_of_not_mem h.noSlash) hclass) hattributes

/-- An opening line has no slash, and the name in it ends where its class begins. -/
theorem readForm_opening {e : Element} (h : e.IsClean) (hattributes : e.attributes = []) :
    readForm (LineForm.opening e).text.toList = .opening e.name := by
  have hslash : '/' ∉ e.name.toList ++ (classText e.styleClass).toList := by
    rw [List.mem_append, not_or]
    exact ⟨h.noSlash, slash_not_mem_classText h.noSlash_class⟩
  have htext : (LineForm.opening e).text.toList =
      '<' :: (e.name.toList ++ (classText e.styleClass).toList ++ ['>']) := by
    simp [LineForm.text, Element.text, hattributes]
  have hfront : (e.name.toList ++ (classText e.styleClass).toList ++ ['>']).head? ≠ some '/' :=
    head?_append_ne (head?_ne_of_not_mem hslash) (by decide)
  have hleaf : '/' ∉ '<' :: (e.name.toList ++ (classText e.styleClass).toList ++ ['>']) := by
    simpa using hslash
  have hname : (e.name.toList ++ (classText e.styleClass).toList).takeWhile (· != ' ') = e.name.toList := by
    have hkept : ∀ c ∈ e.name.toList, (c != ' ') = true := by
      intro c hc
      rw [bne_iff_ne]
      rintro rfl
      exact h.noSpace hc
    -- Behind the name comes a space or nothing.
    have hstop : (classText e.styleClass).toList.takeWhile (· != ' ') = [] := by
      cases e.styleClass <;> simp [classText]
    rw [List.takeWhile_append_of_pos hkept, hstop, List.append_nil]
  rw [htext, readForm, isPrefixOf_slash_eq_false hfront, if_neg Bool.false_ne_true, if_neg hleaf,
    List.drop_succ_cons, List.drop_zero, List.dropLast_concat, hname, String.ofList_toList]

theorem readForm_closing (name : String) :
    readForm (LineForm.closing name).text.toList = .closing name := by
  have htext : (LineForm.closing name).text.toList = '<' :: '/' :: (name.toList ++ ['>']) := by
    simp [LineForm.text]
  rw [htext, readForm, if_pos (by simp [List.isPrefixOf])]
  simp

/-- An element with a slash somewhere behind its front is a leaf. -/
theorem readForm_leaf {e : Element} {cs : List Char} (h : e.IsClean) (hcs : cs.head? ≠ some '/')
    (hslash : '/' ∈ cs) : readForm ('<' :: (e.text.toList ++ cs)) = .leaf := by
  have hleaf : '/' ∈ '<' :: (e.text.toList ++ cs) :=
    List.mem_cons_of_mem _ (List.mem_append_right _ hslash)
  rw [readForm, isPrefixOf_slash_eq_false (head?_append_ne (head?_text_ne h) hcs),
    if_neg Bool.false_ne_true, if_pos hleaf]

/-- The text of a readable line says what the line is. -/
theorem reading_text {l : Line} (h : l.form.IsReadable) : reading l.text = l.form.reading := by
  rw [reading_text_eq]
  cases hform : l.form with
  | opening e =>
    rw [hform] at h
    exact readForm_opening h.1 h.2
  | closing name => exact readForm_closing name
  | empty e =>
    rw [hform] at h
    have htext : (LineForm.empty e).text.toList = '<' :: (e.text.toList ++ [' ', '/', '>']) := by
      simp [LineForm.text]
    rw [htext]
    exact readForm_leaf h (by decide) (by decide)
  | characters e content =>
    rw [hform] at h
    have htext : (LineForm.characters e content).text.toList =
        '<' :: (e.text.toList ++ ('>' :: (content.toList ++ '<' :: '/' :: (e.name.toList ++ ['>'])))) := by
      simp [LineForm.text]
    rw [htext]
    exact readForm_leaf h (by simp) (by simp)

end Handoff.Markup
