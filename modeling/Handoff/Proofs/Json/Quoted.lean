/-
# Handoff.Proofs.Json.Quoted — texts between quotes are read back

The printer has three ways to write a character between quotes: a short escape, a unit of four digits, or the
character itself. Both readers of a quoted text, the one that looks for its end and the one that undoes its
escapes, take each of them as a whole. So whatever a text holds, its quotes end where the printer put them,
and what stands between them is the text again.
-/

import Handoff.Json.Piece
import Handoff.Json.Printer

namespace Handoff.Json

/-! ## Written characters -/

/-- A character that stands for itself between quotes. -/
structure IsPlain (c : Char) : Prop where
  quote : c ≠ '"'
  backslash : c ≠ '\\'
  control : 0x20 ≤ c.toNat

instance (c : Char) : Decidable (IsPlain c) :=
  decidable_of_iff (c ≠ '"' ∧ c ≠ '\\' ∧ 0x20 ≤ c.toNat)
    ⟨fun ⟨quote, backslash, control⟩ => ⟨quote, backslash, control⟩,
      fun ⟨quote, backslash, control⟩ => ⟨quote, backslash, control⟩⟩

/-- The ways to write a character between quotes. -/
inductive WrittenAs (c : Char) : List Char → Prop
  | short (e : Char) (h : shortEscape? e = some c) (control : 0x20 ≤ e.toNat) : WrittenAs c ['\\', e]
  | unit (high low : Char) (h : hexUnit? '0' '0' high low = some c.toNat) (control : c.toNat < 0x20)
      (digits : IsPlain high ∧ IsPlain low) : WrittenAs c ['\\', 'u', '0', '0', high, low]
  | plain (h : IsPlain c) : WrittenAs c [c]

/-- A unit below U+0020 is written in two digits. -/
theorem hexUnit?_hexChar {n : Nat} (h : n < 0x20) :
    hexUnit? '0' '0' (hexChar (n / 16)) (hexChar (n % 16)) = some n ∧
      IsPlain (hexChar (n / 16)) ∧ IsPlain (hexChar (n % 16)) := by
  have htable : (List.range 0x20).all fun n =>
      hexUnit? '0' '0' (hexChar (n / 16)) (hexChar (n % 16)) == some n &&
        (decide (IsPlain (hexChar (n / 16))) && decide (IsPlain (hexChar (n % 16)))) := by decide
  simpa using List.all_eq_true.mp htable n (List.mem_range.mpr h)

theorem writtenAs_escapeChar (c : Char) : WrittenAs c (escapeChar c) := by
  unfold escapeChar
  split
  next h => subst h; exact .short '"' rfl (by decide)
  next hquote =>
  split
  next h => subst h; exact .short '\\' rfl (by decide)
  next hbackslash =>
  split
  next h => subst h; exact .short 'b' rfl (by decide)
  next =>
  split
  next h => subst h; exact .short 't' rfl (by decide)
  next =>
  split
  next h => subst h; exact .short 'n' rfl (by decide)
  next =>
  split
  next h => subst h; exact .short 'f' rfl (by decide)
  next =>
  split
  next h => subst h; exact .short 'r' rfl (by decide)
  next =>
  split
  next h =>
    obtain ⟨hunit, hdigits⟩ := hexUnit?_hexChar h
    exact .unit _ _ hunit h hdigits
  next h => exact .plain ⟨hquote, hbackslash, Nat.not_lt.mp h⟩

/-! ## Undoing escapes -/

/-- Undoing the escapes takes a written character off as a whole. -/
theorem WrittenAs.unescape_append {c : Char} {cs : List Char} (h : WrittenAs c cs) (rest : List Char) :
    unescape (cs ++ rest) = (unescape rest).map (c :: ·) := by
  cases h with
  | short e h control =>
    have hu : e ≠ 'u' := by rintro rfl; cases h
    rw [List.cons_append, List.singleton_append, unescape, h]
    exact fun _ _ _ _ _ heq => absurd heq hu
  | unit high low h control digits =>
    -- A control character is no half of a pair.
    have hhigh : isHighHalf c.toNat = false := by simp only [isHighHalf]; grind
    have hlow : isLowHalf c.toNat = false := by simp only [isLowHalf]; grind
    simp only [List.cons_append, List.nil_append]
    rw [unescape, h]
    simp only [hhigh, hlow, Bool.false_eq_true, if_false, Char.ofNat_toNat]
  | plain h =>
    rw [List.singleton_append, unescape, if_neg h.backslash]
    · exact fun _ _ _ _ _ heq _ => h.backslash heq
    · exact fun _ _ heq _ => h.backslash heq

theorem unescape_flatMap_escapeChar (cs : List Char) : unescape (cs.flatMap escapeChar) = .ok cs := by
  induction cs with
  | nil => rw [List.flatMap_nil, unescape]
  | cons c cs ih =>
    rw [List.flatMap_cons, (writtenAs_escapeChar c).unescape_append, ih]
    rfl

/-! ## Finding the end -/

section Cutting

variable {pieces : List Piece} {body rest : List Char} {c : Char}

theorem cutFrom_inside_plain (h : IsPlain c) :
    cutFrom pieces (.inside body) (c :: rest) = cutFrom pieces (.inside (c :: body)) rest := by
  rw [cutFrom, if_neg h.quote, if_neg (Nat.not_lt.mpr h.control), if_neg h.backslash]

theorem cutFrom_inside_backslash (h : 0x20 ≤ c.toNat) :
    cutFrom pieces (.inside body) ('\\' :: c :: rest) =
      cutFrom pieces (.inside (c :: '\\' :: body)) rest := by
  have hfirst : cutFrom pieces (.inside body) ('\\' :: c :: rest) =
      cutFrom pieces (.afterBackslash ('\\' :: body)) (c :: rest) := rfl
  rw [hfirst, cutFrom, if_neg (Nat.not_lt.mpr h)]

/-- The search for the closing quote passes over a written character. -/
theorem WrittenAs.cutFrom_inside {cs : List Char} (h : WrittenAs c cs) :
    cutFrom pieces (.inside body) (cs ++ rest) = cutFrom pieces (.inside (cs.reverse ++ body)) rest := by
  cases h with
  | short e h control => exact cutFrom_inside_backslash control
  | unit high low h control digits =>
    have hzero : IsPlain '0' := by decide
    show cutFrom pieces (.inside body) ('\\' :: 'u' :: '0' :: '0' :: high :: low :: rest) = _
    rw [cutFrom_inside_backslash (by decide), cutFrom_inside_plain hzero, cutFrom_inside_plain hzero,
      cutFrom_inside_plain digits.1, cutFrom_inside_plain digits.2]
    rfl
  | plain h => exact cutFrom_inside_plain h

theorem cutFrom_inside_escaped (cs : List Char) :
    cutFrom pieces (.inside body) (cs.flatMap escapeChar ++ '"' :: rest) =
      cutFrom (.quoted (body.reverse ++ cs.flatMap escapeChar) :: pieces) (.outside []) rest := by
  induction cs generalizing body with
  | nil => rw [List.flatMap_nil, List.nil_append, List.append_nil, cutFrom, if_pos rfl]
  | cons c cs ih =>
    rw [List.flatMap_cons, List.append_assoc, (writtenAs_escapeChar c).cutFrom_inside, ih,
      List.reverse_append, List.reverse_reverse, List.append_assoc]

end Cutting

end Handoff.Json
