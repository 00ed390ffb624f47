/-
# Handoff.Proofs.Text.Phrase — texts that nothing can be mistaken in

The values of declarations are put together from numbers, keywords and a few signs. A *plain* text is one
that has only those characters and spaces. A *word* is a plain text without spaces that is not empty, and a
*phrase* has a character that is not a space. None of the signs that end a declaration or a rule is plain,
and no plain character is blank, so a phrase stays whole when it is written into a declaration.
-/

import Handoff.Text.Blank

namespace Handoff.Text

/-! ## Characters -/

/-- The signs of numbers, colours, functions and addresses. -/
def valueSigns : List Char :=
  ['-', '.', '%', '#', '(', ')', ',', ':', '/']

/-- The characters that values are written with: ASCII letters, ASCII digits and some signs. -/
def isPlain (c : Char) : Bool :=
  c.isAlphanum || valueSigns.contains c

theorem isPlain_of_isDigit {c : Char} (h : c.isDigit) : isPlain c := by
  simp [isPlain, Char.isAlphanum, h]

/-- No plain character is blank. -/
theorem isBlank_of_isPlain {c : Char} (h : isPlain c) : isBlank c = false := by
  rw [isPlain, Bool.or_eq_true] at h
  rcases h with halnum | hsign
  · have hranges : c.isAlphanum = (decide (c.val ≥ 'A'.val ∧ c.val ≤ 'Z'.val) ||
        (decide (c.val ≥ 'a'.val) && decide (c.val ≤ 'z'.val)) ||
          (decide (c.val ≥ '0'.val) && decide (c.val ≤ '9'.val))) := rfl
    simp only [hranges, Bool.or_eq_true, Bool.and_eq_true, decide_eq_true_eq, ge_iff_le,
      UInt32.le_iff_toNat_le] at halnum
    change ((65 ≤ c.toNat ∧ c.toNat ≤ 90) ∨ (97 ≤ c.toNat ∧ c.toNat ≤ 122)) ∨
      (48 ≤ c.toNat ∧ c.toNat ≤ 57) at halnum
    simp only [isBlank, blankRanges, List.any_cons, List.any_nil, Bool.or_false]
    simp
    omega
  · have hsigns : valueSigns.all (fun d => !isBlank d) := by decide
    simpa using List.all_eq_true.mp hsigns c (List.contains_iff_mem.mp hsign)

theorem ne_of_isPlain {c d : Char} (h : isPlain c) (hd : isPlain d = false) : c ≠ d := by
  rintro rfl
  rw [h] at hd
  cases hd

/-! ## Texts -/

/-- A text of characters that values are written with, and spaces. -/
def IsPlainText (s : String) : Prop :=
  ∀ c ∈ s.toList, isPlain c ∨ c = ' '

structure IsWord (s : String) : Prop where
  ne : s ≠ ""
  plain : ∀ c ∈ s.toList, isPlain c

structure IsPhrase (s : String) : Prop where
  text : IsPlainText s
  plain : ∃ c ∈ s.toList, isPlain c

instance (s : String) : Decidable (IsPlainText s) :=
  decidable_of_iff (s.toList.all fun c => isPlain c || c == ' ') (by simp [IsPlainText])

instance (s : String) : Decidable (IsWord s) :=
  decidable_of_iff (s ≠ "" ∧ s.toList.all isPlain)
    ⟨fun h => ⟨h.1, List.all_eq_true.mp h.2⟩, fun h => ⟨h.ne, List.all_eq_true.mpr h.plain⟩⟩

instance (s : String) : Decidable (IsPhrase s) :=
  decidable_of_iff (IsPlainText s ∧ s.toList.any isPlain)
    ⟨fun h => ⟨h.1, List.any_eq_true.mp h.2⟩, fun h => ⟨h.text, List.any_eq_true.mpr h.plain⟩⟩

variable {a b : String}

theorem isPlainText_append : IsPlainText (a ++ b) ↔ IsPlainText a ∧ IsPlainText b := by
  simp only [IsPlainText, String.toList_append, List.mem_append]
  constructor
  · intro h
    exact ⟨fun c hc => h c (.inl hc), fun c hc => h c (.inr hc)⟩
  · rintro ⟨ha, hb⟩ c (hc | hc)
    · exact ha c hc
    · exact hb c hc

theorem IsPlainText.append (ha : IsPlainText a) (hb : IsPlainText b) : IsPlainText (a ++ b) :=
  isPlainText_append.mpr ⟨ha, hb⟩

theorem IsWord.append (ha : IsWord a) (hb : IsWord b) : IsWord (a ++ b) := by
  refine ⟨fun hempty => ha.ne (String.append_eq_empty_iff.mp hempty).1, fun c hc => ?_⟩
  rw [String.toList_append, List.mem_append] at hc
  rcases hc with hc | hc
  · exact ha.plain c hc
  · exact hb.plain c hc

theorem IsWord.isPhrase (h : IsWord a) : IsPhrase a := by
  refine ⟨fun c hc => .inl (h.plain c hc), ?_⟩
  obtain ⟨c, hc⟩ := List.exists_mem_of_ne_nil a.toList (by simpa using h.ne)
  exact ⟨c, hc, h.plain c hc⟩

theorem IsWord.text (h : IsWord a) : IsPlainText a :=
  h.isPhrase.text

/-- What is plain may be written behind a phrase. -/
theorem IsPhrase.append (ha : IsPhrase a) (hb : IsPlainText b) : IsPhrase (a ++ b) := by
  obtain ⟨c, hc, hplain⟩ := ha.plain
  refine ⟨ha.text.append hb, c, ?_, hplain⟩
  rw [String.toList_append]
  exact List.mem_append_left _ hc

/-- Every character of a joined text is one of the separator or of a part. -/
theorem forall_mem_intercalate {good : Char → Prop} {separator : String} {parts : List String}
    (hseparator : ∀ c ∈ separator.toList, good c) (hparts : ∀ part ∈ parts, ∀ c ∈ part.toList, good c) :
    ∀ c ∈ (separator.intercalate parts).toList, good c := by
  induction parts with
  | nil => simp
  | cons part parts ih =>
    obtain ⟨hpart, hparts⟩ := List.forall_mem_cons.mp hparts
    cases parts with
    | nil => rwa [String.intercalate_singleton]
    | cons next parts =>
      rw [String.intercalate_cons_cons, String.toList_append, String.toList_append]
      exact List.forall_mem_append.mpr ⟨List.forall_mem_append.mpr ⟨hpart, hseparator⟩, ih hparts⟩

theorem isPlainText_intercalate {separator : String} {parts : List String}
    (hseparator : IsPlainText separator) (hparts : ∀ part ∈ parts, IsPlainText part) :
    IsPlainText (separator.intercalate parts) :=
  forall_mem_intercalate hseparator hparts

/-- Several words, the first of which is there, are a phrase. -/
theorem isPhrase_intercalate_cons {separator part : String} {parts : List String}
    (hseparator : IsPlainText separator) (hparts : ∀ p ∈ part :: parts, IsWord p) :
    IsPhrase (separator.intercalate (part :: parts)) := by
  have htexts : ∀ p ∈ parts, IsPlainText p := fun p hp =>
    (hparts p (List.mem_cons_of_mem part hp)).text
  have hfirst : IsPhrase part := (hparts part List.mem_cons_self).isPhrase
  cases parts with
  | nil =>
    rw [String.intercalate_singleton]
    exact hfirst
  | cons next parts =>
    rw [String.intercalate_cons_cons]
    exact (hfirst.append hseparator).append (isPlainText_intercalate hseparator htexts)

/-! ## Numbers -/

theorem isWord_toString (n : Nat) : IsWord (toString n) := by
  rw [Nat.toString_eq_ofList_toDigits]
  refine ⟨?_, fun c hc => ?_⟩
  · simp
  · rw [String.toList_ofList] at hc
    exact isPlain_of_isDigit (Nat.isDigit_of_mem_toDigits (by decide) (by decide) hc)

end Handoff.Text
