/-
# Handoff.Proofs.Text.Blank — what trimming makes no difference to

Blanks at either end are lost, so it does not matter whether they were there, nor whether some of them
were dropped before by a reader that knows fewer of them.
-/

import Handoff.Text.Blank
import Handoff.Text.Front
import Handoff.Text.Identifier
import Mathlib.Data.List.TakeWhile

namespace Handoff.Text

/-! ## What is kept -/

section Drop

variable {drops : Char → Bool} {cs : List Char} {c : Char}

theorem mem_dropWhile (hc : c ∈ cs) (h : drops c = false) : c ∈ cs.dropWhile drops := by
  rw [← List.takeWhile_append_dropWhile (p := drops) (l := cs), List.mem_append] at hc
  rcases hc with hfront | hrest
  · have hdropped := List.mem_takeWhile_imp hfront
    rw [h] at hdropped
    cases hdropped
  · exact hrest

/-- Dropping stops inside a text that has a character to keep. -/
theorem dropWhile_append_of_mem (hc : c ∈ cs) (h : drops c = false) (ds : List Char) :
    (cs ++ ds).dropWhile drops = cs.dropWhile drops ++ ds := by
  have hne : (cs.dropWhile drops).isEmpty = false :=
    List.isEmpty_eq_false_iff.mpr (List.ne_nil_of_mem (mem_dropWhile hc h))
  rw [List.dropWhile_append, hne]
  rfl

end Drop

/-- A character that is not blank is not trimmed. -/
theorem mem_trim {cs : List Char} {c : Char} (hc : c ∈ cs) (h : isBlank c = false) : c ∈ trim cs := by
  have hstart := List.mem_reverse.mpr (mem_dropWhile hc h)
  exact List.mem_reverse.mpr (mem_dropWhile hstart h)

/-- A text without blanks is left as it is. -/
theorem trim_eq_self {cs : List Char} (h : ∀ c ∈ cs, isBlank c = false) : trim cs = cs := by
  have hkept : ∀ ds : List Char, (∀ c ∈ ds, isBlank c = false) → ds.dropWhile isBlank = ds := by
    intro ds hds
    cases ds with
    | nil => rfl
    | cons c ds => rw [List.dropWhile_cons_of_neg (by simp [hds c List.mem_cons_self])]
  have hreverse : ∀ c ∈ cs.reverse, isBlank c = false := fun c hc => h c (List.mem_reverse.mp hc)
  rw [trim, trimStart, hkept cs h, trimEnd, hkept _ hreverse, List.reverse_reverse]

/-- No name has blanks after sanitizing. -/
theorem isBlank_of_mem_sanitize {name : String} {c : Char} (h : c ∈ (sanitize name).toList) :
    isBlank c = false := by
  rw [sanitize, String.toList_ofList, List.mem_filter] at h
  have hspecial : isSpecial c = false := by simpa using h.2
  simp only [isSpecial, Bool.or_eq_false_iff] at hspecial
  exact hspecial.1.1.1.1

/-! ## What is lost -/

/-- The spaces that separate parts are among the blanks. -/
theorem isBlank_of_isSpace {c : Char} (h : isSpace c) : isBlank c := by
  simp only [isSpace, Bool.or_eq_true, beq_iff_eq] at h
  rcases h with ((rfl | rfl) | rfl) | rfl <;> rfl

theorem isSpace_of_isBlank {c : Char} (h : isBlank c = false) : isSpace c = false := by
  by_contra hspace
  rw [isBlank_of_isSpace (by simpa using hspace)] at h
  cases h

/-- Blanks behind a text are lost. -/
theorem trimEnd_append {blanks : List Char} (h : ∀ c ∈ blanks, isBlank c) (cs : List Char) :
    trimEnd (cs ++ blanks) = trimEnd cs := by
  have hall : ∀ c ∈ blanks.reverse, isBlank c := fun c hc => h c (List.mem_reverse.mp hc)
  rw [trimEnd, List.reverse_append, List.dropWhile_append_of_pos hall, trimEnd]

/-- Blanks behind a text that is not blank are lost. -/
theorem trim_append {cs blanks : List Char} {c : Char} (hc : c ∈ cs) (h : isBlank c = false)
    (hblanks : ∀ c ∈ blanks, isBlank c) : trim (cs ++ blanks) = trim cs := by
  rw [trim, trimStart, dropWhile_append_of_mem hc h, trimEnd_append hblanks, trim, trimStart]

/-- Spaces that were skipped would have been trimmed. -/
theorem trim_skipSpaces (cs : List Char) : trim (skipSpaces cs) = trim cs := by
  have hstart : trimStart (skipSpaces cs) = trimStart cs := by
    induction cs with
    | nil => rfl
    | cons c cs ih =>
      by_cases hc : isSpace c
      · rw [skipSpaces, List.dropWhile_cons_of_pos hc, trimStart, trimStart,
          List.dropWhile_cons_of_pos (isBlank_of_isSpace hc)]
        exact ih
      · rw [skipSpaces, List.dropWhile_cons_of_neg hc]
  rw [trim, hstart, trim]

end Handoff.Text
