/-
# Handoff.Proofs.Json.Bare — bare runs

A bare run is a word or a number, and ends before the next blank, quote or mark. A whole number that fits 64
bits is read back from its digits. That a double is read back from the text that the printer finds for it is
no law: the reader rounds twice, so it is said of single doubles, by `Number.ReadsBack`.
-/

import Handoff.Json.Piece
import Handoff.Json.Printer

namespace Handoff

/-! ## The characters of a literal -/

namespace Decimal

/-- The characters that literals are made of. -/
def IsNumeric (c : Char) : Prop :=
  c.isDigit ∨ c ∈ ['+', '-', '.', 'e', 'E']

section Taking

/- Each part of a literal takes numeric characters off and leaves the rest. -/

variable {cs : List Char} {c : Char}

theorem of_mem_takeSign (h : c ∈ cs) : IsNumeric c ∨ c ∈ (takeSign cs).2 := by
  cases cs with
  | nil => cases h
  | cons d cs =>
    rw [takeSign]
    split
    next hd =>
      rcases List.mem_cons.mp h with rfl | h
      · rcases hd with rfl | rfl
        · exact .inl (.inr (by decide))
        · exact .inl (.inr (by decide))
      · exact .inr h
    next => exact .inr h

theorem of_mem_takeDigits (h : c ∈ cs) : IsNumeric c ∨ c ∈ (takeDigits cs).2 := by
  rw [← List.takeWhile_append_dropWhile (p := Char.isDigit) (l := cs)] at h
  have htaken : ∀ d ∈ cs.takeWhile Char.isDigit, d.isDigit := List.all_eq_true.mp List.all_takeWhile
  exact (List.mem_append.mp h).imp_left fun h => .inl (htaken c h)

theorem of_mem_takeFraction (h : c ∈ cs) : IsNumeric c ∨ c ∈ (takeFraction cs).2 := by
  unfold takeFraction
  split
  next rest =>
    rcases List.mem_cons.mp h with rfl | h
    · exact .inl (.inr (by decide))
    · exact of_mem_takeDigits h
  next => exact .inr h

theorem of_mem_takeExponent (h : c ∈ cs) : IsNumeric c ∨ c ∈ (takeExponent cs).2 := by
  cases cs with
  | nil => cases h
  | cons d cs =>
    rw [takeExponent]
    split
    next hd =>
      rcases List.mem_cons.mp h with rfl | h
      · rcases hd with rfl | rfl
        · exact .inl (.inr (by decide))
        · exact .inl (.inr (by decide))
      · exact (of_mem_takeSign h).elim .inl of_mem_takeDigits
    next => exact .inr h

theorem isNumeric_of_mem_scan {l : Literal} (hscan : Literal.scan cs = some l) (h : c ∈ cs) :
    IsNumeric c := by
  unfold Literal.scan at hscan
  dsimp only at hscan
  split at hscan
  next hrest =>
    have hleft := (of_mem_takeSign h).elim .inl fun h => (of_mem_takeDigits h).elim .inl fun h =>
      (of_mem_takeFraction h).elim .inl of_mem_takeExponent
    rw [List.isEmpty_iff.mp hrest] at hleft
    exact hleft.resolve_right List.not_mem_nil
  next => cases hscan

end Taking

/-! ## The literal of a whole number -/

/-- Digits are taken as a whole. -/
theorem takeDigits_of_forall {cs : List Char} (h : ∀ c ∈ cs, c.isDigit) : takeDigits cs = (cs, []) := by
  have htake : (cs ++ []).takeWhile Char.isDigit = cs ++ [] := List.takeWhile_append_of_pos h
  have hdrop : (cs ++ []).dropWhile Char.isDigit = [] := List.dropWhile_append_of_pos h
  rw [List.append_nil] at htake hdrop
  rw [takeDigits, htake, hdrop]

theorem isDigit_of_mem_toDigits {n : Nat} {c : Char} (h : c ∈ Nat.toDigits 10 n) : c.isDigit :=
  Nat.isDigit_of_mem_toDigits (by decide) (by decide) h

theorem toList_toString (n : Nat) : (toString n).toList = Nat.toDigits 10 n := by
  rw [Nat.toString_eq_ofList_toDigits, String.toList_ofList]

theorem takeDigits_toDigits (n : Nat) : takeDigits (Nat.toDigits 10 n) = (Nat.toDigits 10 n, []) :=
  takeDigits_of_forall fun _ hc => isDigit_of_mem_toDigits hc

theorem takeSign_toDigits (n : Nat) : takeSign (Nat.toDigits 10 n) = (none, Nat.toDigits 10 n) := by
  obtain ⟨c, cs, hcs⟩ := List.exists_cons_of_ne_nil (Nat.toDigits_ne_nil (n := n) (b := 10))
  have hdigit : c.isDigit := isDigit_of_mem_toDigits (n := n) (hcs ▸ List.mem_cons_self)
  rw [hcs, takeSign, if_neg]
  rintro (rfl | rfl) <;> cases hdigit

theorem scan_toDigits (n : Nat) :
    Literal.scan (Nat.toDigits 10 n) = some ⟨none, Nat.toDigits 10 n, none, none⟩ := by
  rw [Literal.scan, takeSign_toDigits]
  dsimp only
  rw [takeDigits_toDigits]
  rfl

theorem scan_minus_toDigits (n : Nat) :
    Literal.scan ('-' :: Nat.toDigits 10 n) = some ⟨some '-', Nat.toDigits 10 n, none, none⟩ := by
  have hsign : takeSign ('-' :: Nat.toDigits 10 n) = (some '-', Nat.toDigits 10 n) := rfl
  rw [Literal.scan, hsign]
  dsimp only
  rw [takeDigits_toDigits]
  rfl

theorem digitsValue_toDigits (n : Nat) : digitsValue (Nat.toDigits 10 n) = n :=
  Nat.ofDigitChars_ten_toDigits

/-- A positive number does not start with a zero. -/
theorem exists_toDigits_of_pos {n : Nat} (h : 0 < n) : ∃ c cs, Nat.toDigits 10 n = c :: cs ∧ c ≠ '0' := by
  induction n using Nat.strongRecOn with
  | ind n ih =>
    by_cases hn : n < 10
    · have hdigits : (List.range 10).all fun n => n == 0 || n.digitChar != '0' := by decide
      have hdigit := List.all_eq_true.mp hdigits n (List.mem_range.mpr hn)
      rw [Bool.or_eq_true, beq_iff_eq, bne_iff_ne] at hdigit
      exact ⟨n.digitChar, [], Nat.toDigits_of_lt_base hn, hdigit.resolve_left (Nat.ne_of_gt h)⟩
    · obtain ⟨c, cs, hcs, hc⟩ := ih (n / 10) (by omega) (by omega)
      refine ⟨c, cs ++ [(n % 10).digitChar], ?_, hc⟩
      rw [Nat.toDigits_of_base_le (by decide) (Nat.not_lt.mp hn), hcs, List.cons_append]

end Decimal

namespace Json

open Decimal

theorem hasLooseZero_toDigits (n : Nat) : hasLooseZero (Nat.toDigits 10 n) = false := by
  by_cases h : n = 0
  · subst h
    rfl
  · obtain ⟨c, cs, hcs, hc⟩ := exists_toDigits_of_pos (Nat.pos_of_ne_zero h)
    rw [hcs, hasLooseZero]
    · exact fun h => nomatch h
    · exact fun _ _ heq => hc (List.cons.inj heq).1

/-! ## Numbers -/

/-- A whole number that a literal can be read as. -/
def Number.InRange : Number → Prop
  | .whole n => -(Nat.pow 2 63 : Nat) ≤ n ∧ n < UInt64.size
  | .real _ => True

/-- Whether a number is read back from its text. -/
def Number.ReadsBack (n : Number) : Prop :=
  readBare n.text.toList = .ok (.number n)

/-- The run of a literal is no word, so it is read as the number of the literal. -/
theorem readBare_of_scan {run : List Char} {l : Literal} (hscan : Literal.scan run = some l)
    (hnumeral : isNumeral l) : readBare run = (Number.ofLiteral l).map .number := by
  have hword : ∀ word : List Char, Literal.scan word = none → run ≠ word := by
    rintro word hnone rfl
    rw [hscan] at hnone
    cases hnone
  rw [readBare, if_neg (hword _ rfl), if_neg (hword _ rfl), if_neg (hword _ rfl), hscan]
  dsimp only
  rw [if_pos hnumeral]

/-- Every whole number in range is read back. -/
theorem readsBack_whole {n : Int} (h : (Number.whole n).InRange) : (Number.whole n).ReadsBack := by
  obtain ⟨hlow, hhigh⟩ := h
  cases n with
  | ofNat n =>
    have htext : (Number.whole (Int.ofNat n)).text.toList = Nat.toDigits 10 n := toList_toString n
    have hnumeral : isNumeral ⟨none, Nat.toDigits 10 n, none, none⟩ := by
      simp [isNumeral, hasLooseZero_toDigits]
    have hnumber : Number.ofLiteral ⟨none, Nat.toDigits 10 n, none, none⟩ = .ok (.whole n) := by
      rw [Number.ofLiteral]
      dsimp only
      rw [digitsValue_toDigits, if_pos]
      exact decide_eq_true (Int.ofNat_lt.mp hhigh)
    rw [Number.ReadsBack, htext, readBare_of_scan (scan_toDigits n) hnumeral, hnumber]
    rfl
  | negSucc n =>
    have htext : (Number.whole (Int.negSucc n)).text.toList = '-' :: Nat.toDigits 10 (n + 1) := by
      show ("-" ++ toString (n + 1)).toList = _
      rw [String.toList_append, toList_toString]
      rfl
    have hnumeral : isNumeral ⟨some '-', Nat.toDigits 10 (n + 1), none, none⟩ := by
      simp [isNumeral, hasLooseZero_toDigits]
    have hnumber : Number.ofLiteral ⟨some '-', Nat.toDigits 10 (n + 1), none, none⟩ =
        .ok (.whole (Int.negSucc n)) := by
      have hfits : n + 1 ≤ Nat.pow 2 63 := by omega
      rw [Number.ofLiteral]
      dsimp only
      rw [digitsValue_toDigits, if_neg, if_pos]
      · rfl
      · exact Bool.and_eq_true_iff.mpr ⟨decide_eq_true (Nat.succ_ne_zero n), decide_eq_true hfits⟩
      · exact Bool.false_ne_true
    rw [Number.ReadsBack, htext, readBare_of_scan (scan_minus_toDigits (n + 1)) hnumeral, hnumber]
    rfl

theorem inRange_of_ofLiteral {l : Literal} {n : Number} (h : Number.ofLiteral l = .ok n) : n.InRange := by
  unfold Number.ofLiteral at h
  dsimp only at h
  split at h
  next hcond =>
    cases h
    rw [Bool.and_eq_true, decide_eq_true_eq] at hcond
    exact ⟨by omega, Int.ofNat_lt.mpr hcond.2⟩
  next =>
    split at h
    next hcond =>
      cases h
      simp only [Bool.and_eq_true, decide_eq_true_eq] at hcond
      exact ⟨by omega, by omega⟩
    next =>
      split at h
      · cases h
        trivial
      · cases h

/-! ## Runs -/

/-- A character that belongs to a bare run. -/
def IsBare (c : Char) : Prop :=
  c ≠ '"' ∧ isMark c = false ∧ Text.isSpace c = false

instance (c : Char) : Decidable (IsBare c) :=
  inferInstanceAs (Decidable (_ ∧ _ ∧ _))

theorem isBare_of_isNumeric {c : Char} (h : IsNumeric c) : IsBare c := by
  rcases h with hdigit | hsign
  · refine ⟨?_, Bool.eq_false_iff.mpr fun hmark => ?_, Bool.eq_false_iff.mpr fun hspace => ?_⟩
    · rintro rfl
      cases hdigit
    · simp only [isMark, Bool.or_eq_true, beq_iff_eq] at hmark
      rcases hmark with ((((rfl | rfl) | rfl) | rfl) | rfl) | rfl <;> cases hdigit
    · simp only [Text.isSpace, Bool.or_eq_true, beq_iff_eq] at hspace
      rcases hspace with ((rfl | rfl) | rfl) | rfl <;> cases hdigit
  · have hsigns : ['+', '-', '.', 'e', 'E'].all fun c => decide (IsBare c) := by decide
    exact of_decide_eq_true (List.all_eq_true.mp hsigns c hsign)

/-- What a bare run is read as: a word, or a number in range. Its characters keep it together. -/
theorem of_readBare {run : List Char} {v : Json} (h : readBare run = .ok v) :
    run ≠ [] ∧ (∀ c ∈ run, IsBare c) ∧
      (v = .null ∨ (∃ b, v = .bool b) ∨ ∃ n, v = .number n ∧ n.InRange) := by
  have hletters : ∀ word : List Char, word.all (fun c => decide (IsBare c)) → ∀ c ∈ word, IsBare c :=
    fun word hall c hc => of_decide_eq_true (List.all_eq_true.mp hall c hc)
  unfold readBare at h
  split at h
  next hnull =>
    cases h
    subst hnull
    exact ⟨List.cons_ne_nil _ _, hletters _ rfl, .inl rfl⟩
  next =>
  split at h
  next htrue =>
    cases h
    subst htrue
    exact ⟨List.cons_ne_nil _ _, hletters _ rfl, .inr (.inl ⟨true, rfl⟩)⟩
  next =>
  split at h
  next hfalse =>
    cases h
    subst hfalse
    exact ⟨List.cons_ne_nil _ _, hletters _ rfl, .inr (.inl ⟨false, rfl⟩)⟩
  next =>
  split at h
  next l hscan =>
    split at h
    next hnumeral =>
      refine ⟨?_, fun c hc => isBare_of_isNumeric (isNumeric_of_mem_scan hscan hc), ?_⟩
      · rintro rfl
        cases hscan
        cases hnumeral
      · cases hnumber : Number.ofLiteral l with
        | error e => rw [hnumber] at h; cases h
        | ok n =>
          rw [hnumber] at h
          cases h
          exact .inr (.inr ⟨n, rfl, inRange_of_ofLiteral hnumber⟩)
    next => cases h
  next => cases h

end Json

end Handoff
