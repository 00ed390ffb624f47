/-
# Handoff.Proofs.Style.Numeral — numbers and lengths are words

However a double is written, whole or with a fraction, negative, infinite or not a number at all, its text
has digits, letters, a point and a minus sign only. So has every length, in every unit.
-/

import Handoff.Proofs.Text.Phrase
import Handoff.Style.Shorthand

namespace Handoff

open Text (IsWord IsPhrase IsPlainText isPlain isPlain_of_isDigit)

/-! ## Numbers -/

namespace Decimal

theorem isPlain_of_mem_toDigits {n : Nat} {c : Char} (h : c ∈ Nat.toDigits 10 n) : isPlain c :=
  isPlain_of_isDigit (Nat.isDigit_of_mem_toDigits (by decide) (by decide) h)

theorem isPlain_of_mem_zeros {n : Nat} {c : Char} (h : c ∈ (zeros n).toList) : isPlain c := by
  rw [zeros, String.toList_ofList] at h
  rw [List.eq_of_mem_replicate h]
  decide

/-- The positional text of a decimal has digits and at most a point. -/
theorem isWord_positional (d : Decimal) : IsWord d.positional := by
  have hdigits : ∀ c ∈ Nat.toDigits 10 d.digits, isPlain c := fun c hc => isPlain_of_mem_toDigits hc
  rw [positional]
  -- A whole number, a point among the digits, or a point in front of all of them.
  split
  · refine ⟨by simp [String.append_eq_empty_iff], fun c hc => ?_⟩
    rw [String.toList_append, String.toList_ofList, List.mem_append] at hc
    rcases hc with hc | hc
    · exact hdigits c hc
    · exact isPlain_of_mem_zeros hc
  · split
    · refine ⟨by simp [String.append_eq_empty_iff], fun c hc => ?_⟩
      simp only [String.toList_append, String.toList_ofList, List.mem_append] at hc
      rcases hc with (hc | hc) | hc
      · exact hdigits c (List.mem_of_mem_take hc)
      · exact IsWord.plain (s := ".") (by decide) c hc
      · exact hdigits c (List.mem_of_mem_drop hc)
    · refine ⟨by simp [String.append_eq_empty_iff], fun c hc => ?_⟩
      simp only [String.toList_append, String.toList_ofList, List.mem_append] at hc
      rcases hc with (hc | hc) | hc
      · exact IsWord.plain (s := "0.") (by decide) c hc
      · exact isPlain_of_mem_zeros hc
      · exact hdigits c hc

theorem isWord_text (x : Float) : IsWord (text x) := by
  rw [text]
  split
  · decide
  · have hmagnitude : IsWord (if x.isInf then "inf" else if x == 0 then "0"
        else ((Interval.ofBits x.toBits).shortest .upward).positional) := by
      split
      · decide
      · split
        · decide
        · exact isWord_positional _
    show IsWord (if isNegative x then _ else _)
    split
    · exact IsWord.append (by decide) hmagnitude
    · exact hmagnitude

end Decimal

theorem isWord_formatNumber (x : Float) : IsWord (formatNumber x) :=
  Decimal.isWord_text _

/-! ## Lengths -/

theorem isWord_formatSize (unit : LengthUnit) (pixels : Float) : IsWord (unit.formatSize pixels) := by
  rw [LengthUnit.formatSize]
  split
  · split
    · exact (isWord_formatNumber _).append (by decide)
    · exact (isWord_formatNumber _).append (by decide)
  · decide

theorem isWord_formatPixelFloor (pixels : Float) : IsWord (formatPixelFloor pixels) := by
  rw [formatPixelFloor]
  split
  · exact (isWord_formatNumber _).append (by decide)
  · decide

/-- Several lengths are a phrase. -/
theorem isPhrase_formatSizes (unit : LengthUnit) (pixels : Float) (more : List Float) :
    IsPhrase (unit.formatSizes (pixels :: more)) := by
  rw [LengthUnit.formatSizes, List.map_cons]
  refine Text.isPhrase_intercalate_cons (by decide) fun p hp => ?_
  rw [← List.map_cons] at hp
  obtain ⟨x, -, rfl⟩ := List.mem_map.mp hp
  exact isWord_formatSize unit x

/-! ## Shorthands -/

theorem isPhrase_of_padding? {s : Sides} {unit : LengthUnit} {value : String}
    (h : s.padding? unit = some value) : IsPhrase value := by
  rw [Sides.padding?] at h
  split at h
  · split at h
    · cases h
      exact (isWord_formatSize _ _).isPhrase
    · cases h
  · split at h
    · cases h
      exact isPhrase_formatSizes _ _ _
    · cases h
      exact isPhrase_formatSizes _ _ _

theorem isWord_of_uniformRadius? {unit : LengthUnit} {radius : Float} {value : String}
    (h : uniformRadius? unit radius = some value) : IsWord value := by
  rw [uniformRadius?] at h
  split at h
  · cases h
  · cases h
    exact isWord_formatSize _ _

theorem isPhrase_of_css? {unit : LengthUnit} {radius : CornerRadius} {value : String}
    (h : radius.css? unit = some value) : IsPhrase value := by
  cases radius with
  | uniform radius => exact (isWord_of_uniformRadius? h).isPhrase
  | perCorner corners =>
    rw [CornerRadius.css?] at h
    split at h
    · exact (isWord_of_uniformRadius? h).isPhrase
    · cases h
      exact isPhrase_formatSizes _ _ _

end Handoff
