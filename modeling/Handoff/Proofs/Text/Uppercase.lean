/-
# Handoff.Proofs.Text.Uppercase — what a capital can be

Sanitizing a name and then writing its first character as a capital must not bring a removed sign back. The
two tables of capitals settle that: every code in them lies behind those of the signs.
-/

import Handoff.Proofs.Text.Blank
import Handoff.Text.Uppercase

namespace Handoff.Text

/-- The capitals that are several characters lie behind the signs. -/
theorem sign_lt_expansions : ∀ e ∈ expansions, ∀ code ∈ e.2, 0x40 < code := by
  have h : expansions.all (fun e => e.2.all fun code => 0x40 < code) = true := by decide +kernel
  simpa using h

/-- So do the capitals of the small letters that a run begins with. -/
theorem sign_lt_spans : ∀ s ∈ spans, 0x40 < (s.first : Int) + s.shift := by
  have h : spans.all (fun s => 0x40 < (s.first : Int) + s.shift) = true := by decide +kernel
  simpa using h

/-- A code that is no character is written as the character zero. -/
theorem toNat_ofNat_eq_or (code : Nat) : (Char.ofNat code).toNat = 0 ∨ (Char.ofNat code).toNat = code := by
  by_cases hvalid : code.isValidChar
  · have hchar : Char.ofNat code = Char.ofNatAux code hvalid := dif_pos hvalid
    rw [hchar]
    exact .inr rfl
  · have hchar : Char.ofNat code = Char.ofNat 0 := dif_neg hvalid
    rw [hchar]
    exact .inl rfl

/-- Where a capital comes from: one of the tables, unless the character is in neither. -/
theorem cases_of_mem_upperChar {c d : Char} (h : d ∈ upperChar c) :
    d.toNat = 0 ∨ (∃ e ∈ expansions, d.toNat ∈ e.2) ∨
      (∃ s ∈ spans, s.holds c.toNat ∧ (d.toNat : Int) = c.toNat + s.shift) ∨
      (d = c ∧ ∀ s ∈ spans, ¬s.holds c.toNat) := by
  rw [upperChar] at h
  split at h
  next codes hcodes =>
    obtain ⟨code, hcode, rfl⟩ := List.mem_map.mp h
    obtain ⟨before, after, hsplit, -⟩ := List.lookup_eq_some_iff.mp hcodes
    rcases toNat_ofNat_eq_or code with hzero | hsame
    · exact .inl hzero
    · exact .inr (.inl ⟨(c.toNat, codes), by simp [hsplit], by rwa [hsame]⟩)
  next =>
    split at h
    next s hs =>
      have hholds := List.find?_some hs
      rw [List.mem_singleton.mp h]
      rcases toNat_ofNat_eq_or ((c.toNat : Int) + s.shift).toNat with hzero | hsame
      · exact .inl hzero
      · by_cases hpos : 0 ≤ (c.toNat : Int) + s.shift
        · exact .inr (.inr (.inl ⟨s, List.mem_of_find?_eq_some hs, hholds, by omega⟩))
        · left; omega
    next hnone =>
      exact .inr (.inr (.inr ⟨List.mem_singleton.mp h, List.find?_eq_none.mp hnone⟩))

/-- A capital is the character itself or no sign. -/
theorem of_mem_upperChar {c d : Char} (h : d ∈ upperChar c) : d = c ∨ d.toNat = 0 ∨ 0x40 < d.toNat := by
  rcases cases_of_mem_upperChar h with hzero | ⟨e, he, hcode⟩ | ⟨s, hs, hholds, hcode⟩ | ⟨hsame, -⟩
  · exact .inr (.inl hzero)
  · exact .inr (.inr (sign_lt_expansions e he d.toNat hcode))
  · have hlt := sign_lt_spans s hs
    simp only [CaseSpan.holds, Bool.and_eq_true, decide_eq_true_eq] at hholds
    right; right; omega
  · exact .inl hsame

/-- No capital is a small ASCII letter. -/
theorem not_small_of_mem_upperChar {c d : Char} (h : d ∈ upperChar c) : d.toNat < 0x61 ∨ 0x7A < d.toNat := by
  have hexpansions : expansions.all (fun e => e.2.all fun code => code < 0x61 || 0x7A < code) = true := by
    decide +kernel
  have hspans : spans.all (fun s => s.last + s.shift < 0x61 || 0x7A < s.first + s.shift) = true := by
    decide +kernel
  simp only [List.all_eq_true, Bool.or_eq_true, decide_eq_true_eq] at hexpansions hspans
  rcases cases_of_mem_upperChar h with hzero | ⟨e, he, hcode⟩ | ⟨s, hs, hholds, hcode⟩ | ⟨rfl, hnone⟩
  · left; omega
  · exact hexpansions e he d.toNat hcode
  · have hout := hspans s hs
    simp only [CaseSpan.holds, Bool.and_eq_true, decide_eq_true_eq] at hholds
    omega
  · -- The small ASCII letters are the first run.
    have hletters := hnone ⟨0x61, 0x7A, 1, -32⟩ List.mem_cons_self
    simp only [CaseSpan.holds, Nat.mod_one, BEq.rfl, Bool.and_true, Bool.and_eq_true,
      decide_eq_true_eq] at hletters
    omega

/-- Sanitizing leaves no special character. -/
theorem isSpecial_of_mem_sanitize {name : String} {c : Char} (h : c ∈ (sanitize name).toList) :
    isSpecial c = false := by
  rw [sanitize, String.toList_ofList, List.mem_filter] at h
  simpa using h.2

theorem not_mem_sanitize {c : Char} (hc : isSpecial c) (name : String) : c ∉ (sanitize name).toList := by
  intro h
  rw [isSpecial_of_mem_sanitize h] at hc
  cases hc

/-- No removed sign comes back with a capital. -/
theorem not_mem_capitalize {s : String} {c : Char} (h : c ∉ s.toList) (hpos : 0 < c.toNat)
    (hle : c.toNat ≤ 0x40) : c ∉ (capitalize s).toList := by
  intro hmem
  rw [capitalize, String.toList_ofList] at hmem
  cases hs : s.toList with
  | nil =>
    rw [hs] at hmem
    cases hmem
  | cons d ds =>
    rw [hs, List.mem_cons, not_or] at h
    rw [hs, capitalizeChars, List.mem_append] at hmem
    rcases hmem with hfirst | hrest
    · rcases of_mem_upperChar hfirst with hsame | hzero | hlt
      · exact h.1 hsame
      · omega
      · omega
    · exact h.2 hrest

/-- A capital has at least one character. -/
theorem upperChar_ne_nil (c : Char) : upperChar c ≠ [] := by
  have hexpansions : expansions.all (fun e => !e.2.isEmpty) = true := by decide +kernel
  rw [upperChar]
  split
  next codes hcodes =>
    obtain ⟨before, after, hsplit, -⟩ := List.lookup_eq_some_iff.mp hcodes
    have hne := List.all_eq_true.mp hexpansions (c.toNat, codes) (by simp [hsplit])
    simpa using hne
  next => split <;> exact List.cons_ne_nil _ _

/-- A capitalized name does not begin with a small ASCII letter. -/
theorem not_small_of_capitalize {s : String} {d : Char} {ds : List Char} (h : (capitalize s).toList = d :: ds) :
    d.toNat < 0x61 ∨ 0x7A < d.toNat := by
  rw [capitalize, String.toList_ofList] at h
  cases hs : s.toList with
  | nil =>
    rw [hs] at h
    cases h
  | cons c cs =>
    obtain ⟨e, es, hfirst⟩ := List.exists_cons_of_ne_nil (upperChar_ne_nil c)
    rw [hs, capitalizeChars, hfirst, List.cons_append, List.cons.injEq] at h
    refine not_small_of_mem_upperChar (c := c) ?_
    rw [hfirst, h.1]
    exact List.mem_cons_self

end Handoff.Text
