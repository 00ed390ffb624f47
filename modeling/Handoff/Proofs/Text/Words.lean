/-
# Handoff.Proofs.Text.Words — cutting a text at its blanks

A blank belongs to no word and ends the one in front of it, so the words of a text are those in front of any
of its blanks and those behind it. A *token* is a text that is its own only word: it has no blank and is not
empty. Tokens that are joined by spaces come back, whatever else may have been trimmed.
-/

import Handoff.Proofs.Text.Phrase

namespace Handoff.Text

/-! ## Tokens -/

/-- A text without blanks. -/
def IsUnbroken (s : String) : Prop :=
  ∀ c ∈ s.toList, isBlank c = false

instance (s : String) : Decidable (IsUnbroken s) :=
  decidable_of_iff (s.toList.all fun c => !isBlank c) (by simp [IsUnbroken])

structure IsToken (s : String) : Prop where
  ne : s ≠ ""
  unbroken : IsUnbroken s

theorem isUnbroken_append {a b : String} : IsUnbroken (a ++ b) ↔ IsUnbroken a ∧ IsUnbroken b := by
  rw [IsUnbroken, String.toList_append, List.forall_mem_append]
  rfl

theorem IsUnbroken.append {a b : String} (ha : IsUnbroken a) (hb : IsUnbroken b) : IsUnbroken (a ++ b) :=
  isUnbroken_append.mpr ⟨ha, hb⟩

theorem IsWord.isToken {s : String} (h : IsWord s) : IsToken s :=
  ⟨h.ne, fun c hc => isBlank_of_isPlain (h.plain c hc)⟩

/-- The only blank of a plain text is the space. -/
theorem IsPlainText.isUnbroken {s : String} (h : IsPlainText s) (hspace : ' ' ∉ s.toList) : IsUnbroken s := by
  intro c hc
  rcases h c hc with hplain | rfl
  · exact isBlank_of_isPlain hplain
  · exact absurd hc hspace

/-! ## Words around a blank -/

/-- A run that was begun in front of a blank ends there. -/
theorem wordsFrom_append_cons {b : Char} (hb : isBlank b) (run cs ds : List Char) :
    wordsFrom run (cs ++ b :: ds) = wordsFrom run cs ++ words ds := by
  induction cs generalizing run with
  | nil =>
    simp only [List.nil_append, wordsFrom, hb, if_true]
    split <;> rfl
  | cons c cs ih =>
    rw [List.cons_append, wordsFrom, wordsFrom]
    split
    · split
      · exact ih []
      · rw [ih [], List.cons_append]
    · exact ih (run ++ [c])

theorem words_append_cons {b : Char} (hb : isBlank b) (cs ds : List Char) :
    words (cs ++ b :: ds) = words cs ++ words ds :=
  wordsFrom_append_cons hb [] cs ds

/-- Blanks at the ends make no difference to the words. -/
theorem words_trim (cs : List Char) : words (trim cs) = words cs := by
  have hstart (cs : List Char) : words (trimStart cs) = words cs := by
    induction cs with
    | nil => rfl
    | cons c cs ih =>
      by_cases hc : isBlank c
      · rw [trimStart, List.dropWhile_cons_of_pos hc]
        exact ih.trans (words_append_cons hc [] cs).symm
      · rw [trimStart, List.dropWhile_cons_of_neg hc]
  have hend (cs : List Char) : words (cs.dropWhile isBlank).reverse = words cs.reverse := by
    induction cs with
    | nil => rfl
    | cons c cs ih =>
      by_cases hc : isBlank c
      · rw [List.dropWhile_cons_of_pos hc, List.reverse_cons, words_append_cons hc, ih]
        exact (List.append_nil _).symm
      · rw [List.dropWhile_cons_of_neg hc]
  rw [trim, trimEnd, hend, List.reverse_reverse, hstart]

/-! ## Words and tokens -/

/-- No blank is left in a word. -/
theorem isBlank_of_mem_wordsFrom {run cs word : List Char} (hrun : ∀ c ∈ run, isBlank c = false)
    (h : word ∈ wordsFrom run cs) : ∀ c ∈ word, isBlank c = false := by
  induction cs generalizing run with
  | nil =>
    rw [wordsFrom] at h
    split at h
    · cases h
    · rwa [List.mem_singleton.mp h]
  | cons c cs ih =>
    have hnil : ∀ c ∈ ([] : List Char), isBlank c = false := List.forall_mem_nil _
    rw [wordsFrom] at h
    split at h
    · split at h
      · exact ih hnil h
      · rcases List.mem_cons.mp h with rfl | h
        · exact hrun
        · exact ih hnil h
    next hc =>
      refine ih (List.forall_mem_append.mpr ⟨hrun, List.forall_mem_singleton.mpr ?_⟩) h
      simpa using hc

theorem isUnbroken_of_mem_wordsOf {s word : String} (h : word ∈ wordsOf s) : IsUnbroken word := by
  obtain ⟨cs, hcs, rfl⟩ := List.mem_map.mp h
  rw [IsUnbroken, String.toList_ofList]
  exact isBlank_of_mem_wordsFrom (List.forall_mem_nil _) hcs

/-- A run goes on as long as there is no blank. -/
theorem wordsFrom_of_forall {run cs : List Char} (hcs : ∀ c ∈ cs, isBlank c = false) (hne : run ++ cs ≠ []) :
    wordsFrom run cs = [run ++ cs] := by
  induction cs generalizing run with
  | nil =>
    rw [List.append_nil] at hne
    rw [wordsFrom, if_neg (by simpa using hne), List.append_nil]
  | cons c cs ih =>
    obtain ⟨hc, hcs⟩ := List.forall_mem_cons.mp hcs
    rw [List.append_cons] at hne ⊢
    rw [wordsFrom, if_neg (by simp [hc]), ih hcs hne]

/-- A token is its own only word. -/
theorem IsToken.wordsOf_eq {s : String} (h : IsToken s) : wordsOf s = [s] := by
  have hwords : words s.toList = [s.toList] := wordsFrom_of_forall h.unbroken (by simpa using h.ne)
  rw [wordsOf, hwords, List.map_singleton, String.ofList_toList]

/-- Joining by spaces joins the lists of words. -/
theorem wordsOf_intercalate (parts : List String) :
    wordsOf (" ".intercalate parts) = parts.flatMap wordsOf := by
  induction parts with
  | nil => rfl
  | cons part parts ih =>
    cases parts with
    | nil => rw [String.intercalate_singleton, List.flatMap_singleton]
    | cons next parts =>
      have htext : (" ".intercalate (part :: next :: parts)).toList =
          part.toList ++ ' ' :: (" ".intercalate (next :: parts)).toList := by
        rw [String.intercalate_cons_cons]
        simp
      rw [List.flatMap_cons, ← ih, wordsOf, htext, words_append_cons rfl, List.map_append]
      rfl

/-- Tokens that are joined by spaces come back. -/
theorem wordsOf_intercalate_of_isToken {parts : List String} (h : ∀ part ∈ parts, IsToken part) :
    wordsOf (" ".intercalate parts) = parts := by
  rw [wordsOf_intercalate, List.flatMap_def, List.map_congr_left fun part hpart => (h part hpart).wordsOf_eq,
    ← List.flatMap_def, List.flatMap_singleton']

/-- So do the parts between the spaces of a text that is joined from them. -/
theorem splitOn_intercalate_of_isToken {parts : List String} (hne : parts ≠ [])
    (h : ∀ part ∈ parts, IsToken part) :
    (" ".intercalate parts).toList.splitOn ' ' = parts.map String.toList := by
  rw [String.toList_intercalate]
  refine List.splitOn_intercalate ' ' (fun part hpart hspace => ?_) (by simpa using hne)
  obtain ⟨token, htoken, rfl⟩ := List.mem_map.mp hpart
  exact absurd ((h token htoken).unbroken ' ' hspace) (by decide)

end Handoff.Text
