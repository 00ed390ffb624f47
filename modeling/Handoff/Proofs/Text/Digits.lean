/-
# Handoff.Proofs.Text.Digits — the digits at the end of a text

A text falls into its stem and the digits at its end. Numbers written behind a text join those digits and
leave the stem alone, so two texts with numbers behind them differ as soon as their stems do, whatever the
numbers are.
-/

import Handoff.Proofs.Style.ClassName

namespace Handoff.Text

/-- The digits at the end of a text. -/
def endDigits (s : String) : String :=
  String.ofList (s.toList.reverse.takeWhile Char.isDigit).reverse

/-- A text without the digits at its end. -/
def stem (s : String) : String :=
  String.ofList (s.toList.reverse.dropWhile Char.isDigit).reverse

variable {digits : String}

theorem endDigits_append (s : String) (h : ∀ c ∈ digits.toList, c.isDigit) :
    endDigits (s ++ digits) = endDigits s ++ digits := by
  have hreverse : ∀ c ∈ digits.toList.reverse, c.isDigit := fun c hc => h c (List.mem_reverse.mp hc)
  rw [endDigits, String.toList_append, List.reverse_append, List.takeWhile_append_of_pos hreverse,
    List.reverse_append, List.reverse_reverse, String.ofList_append, String.ofList_toList, endDigits]

theorem stem_append (s : String) (h : ∀ c ∈ digits.toList, c.isDigit) :
    stem (s ++ digits) = stem s := by
  have hreverse : ∀ c ∈ digits.toList.reverse, c.isDigit := fun c hc => h c (List.mem_reverse.mp hc)
  rw [stem, String.toList_append, List.reverse_append, List.dropWhile_append_of_pos hreverse, stem]

/-- A text that ends in something else has no digits at its end. -/
theorem endDigits_append_of_not_isDigit (s : String) (rest : List Char) {c : Char}
    (hc : c.isDigit = false) : endDigits (s ++ String.ofList (rest ++ [c])) = "" := by
  rw [endDigits, String.toList_append, String.toList_ofList, List.reverse_append, List.reverse_append,
    List.reverse_singleton, List.singleton_append, List.cons_append, List.takeWhile_cons, hc]
  rfl

/-- No digit is a letter. -/
theorem isAlpha_of_isDigit {c : Char} (h : c.isDigit) : c.isAlpha = false := by
  have hrange := isDigit_iff.mp h
  have hletters : c.isAlpha = (decide (c.val ≥ 'A'.val ∧ c.val ≤ 'Z'.val) ||
      (decide (c.val ≥ 'a'.val) && decide (c.val ≤ 'z'.val))) := rfl
  rw [Bool.eq_false_iff]
  intro halpha
  simp only [hletters, Bool.or_eq_true, Bool.and_eq_true, decide_eq_true_eq, ge_iff_le,
    UInt32.le_iff_toNat_le] at halpha
  change (65 ≤ c.toNat ∧ c.toNat ≤ 90) ∨ (97 ≤ c.toNat ∧ c.toNat ≤ 122) at halpha
  omega

/-- A number is written in digits. -/
theorem isDigit_of_mem_toString {n : Nat} {c : Char} (h : c ∈ (toString n).toList) :
    c.isDigit := by
  rw [Nat.toString_eq_ofList_toDigits, String.toList_ofList] at h
  exact Nat.isDigit_of_mem_toDigits (by decide) (by decide) h

/-- Two numbers that are written alike are one number. -/
theorem toString_inj {m n : Nat} : toString m = toString n ↔ m = n := by
  refine ⟨fun h => ?_, fun h => congrArg toString h⟩
  rw [Nat.toString_eq_ofList_toDigits, Nat.toString_eq_ofList_toDigits, String.ofList_inj] at h
  rw [← Nat.ofDigitChars_ten_toDigits (n := m), h, Nat.ofDigitChars_ten_toDigits]

end Handoff.Text
