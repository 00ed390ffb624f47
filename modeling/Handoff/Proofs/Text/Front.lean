/-
# Handoff.Proofs.Text.Front — reading what was written piece by piece

Each function that reads from the front of a text is shown to find what was put there, whatever stands
behind it. `many_lines` does that for repetition: a text made of lines is read line by line, if a step
reads one line and fails behind the last one. The step may leave the end of a line to the next step, so
the statement allows spaces in front of every line.
-/

import Handoff.Text.Front

namespace Handoff.Text

/-! ## Single pieces -/

theorem skipSpaces_append {lead : List Char} (h : ∀ c ∈ lead, isSpace c) (cs : List Char) :
    skipSpaces (lead ++ cs) = skipSpaces cs :=
  List.dropWhile_append_of_pos h

theorem skipSpaces_cons {c : Char} (h : isSpace c = false) (cs : List Char) :
    skipSpaces (c :: cs) = c :: cs :=
  List.dropWhile_cons_of_neg (by simp [h])

theorem takeChar_cons (c : Char) (cs : List Char) : takeChar c (c :: cs) = some cs := by
  rw [takeChar, if_pos rfl]

theorem skipChar_cons (c : Char) (cs : List Char) : skipChar c (c :: cs) = cs := by
  rw [skipChar, if_pos rfl]

section Run

variable {accepts : Char → Bool} {run rest : List Char} {c : Char}

/-- A run ends in front of the first character that is not accepted. -/
theorem takeWhile_append_cons (h : ∀ d ∈ run, accepts d) (hc : accepts c = false) :
    (run ++ c :: rest).takeWhile accepts = run := by
  rw [List.takeWhile_append_of_pos h, List.takeWhile_cons_of_neg (by simp [hc]), List.append_nil]

theorem dropWhile_append_cons (h : ∀ d ∈ run, accepts d) (hc : accepts c = false) :
    (run ++ c :: rest).dropWhile accepts = c :: rest := by
  rw [List.dropWhile_append_of_pos h, List.dropWhile_cons_of_neg (by simp [hc])]

theorem takeRun_append (hne : run ≠ []) (h : ∀ d ∈ run, accepts d) (hc : accepts c = false) :
    takeRun accepts (run ++ c :: rest) = some (run, c :: rest) := by
  rw [takeRun, takeWhile_append_cons h hc, dropWhile_append_cons h hc]
  exact if_neg (by simpa using hne)

theorem takeRun_cons_of_not (hc : accepts c = false) : takeRun accepts (c :: rest) = none := by
  rw [takeRun, List.takeWhile_cons_of_neg (by simp [hc])]
  rfl

end Run

/-! ## Repetition -/

theorem isSpace_of_mem_newline : ∀ c ∈ ['\n'], isSpace c :=
  List.forall_mem_singleton.mpr rfl

section Many

variable {α β : Type} {step : List Char → Option (β × List Char)}

theorem many_of_none {cs : List Char} (h : step cs = none) : many step cs = ([], cs) := by
  rw [many, h]

theorem many_of_some {cs rest : List Char} {b : β} (h : step cs = some (b, rest))
    (hlt : rest.length < cs.length) :
    many step cs = (b :: (many step rest).1, (many step rest).2) := by
  rw [many, h]
  exact if_pos hlt

/-- **Lines are read back one by one.** What is left is the text behind them and the end of the last
line. -/
theorem many_lines {line : α → List Char} {value : α → β} (items : List α) (tail : List Char)
    (hline : ∀ a ∈ items, ∀ lead rest, (∀ c ∈ lead, isSpace c) →
      step (lead ++ (line a ++ rest)) = some (value a, rest))
    (hne : ∀ a ∈ items, line a ≠ [])
    (htail : ∀ lead, (∀ c ∈ lead, isSpace c) → step (lead ++ tail) = none)
    {lead : List Char} (hlead : ∀ c ∈ lead, isSpace c) :
    ∃ left, (∀ c ∈ left, isSpace c) ∧
      many step (lead ++ (items.flatMap (fun a => line a ++ ['\n']) ++ tail)) =
        (items.map value, left ++ tail) := by
  induction items generalizing lead with
  | nil => exact ⟨lead, hlead, many_of_none (htail lead hlead)⟩
  | cons a items ih =>
    obtain ⟨left, hleft, hmany⟩ := ih (fun b hb => hline b (List.mem_cons_of_mem a hb))
      (fun b hb => hne b (List.mem_cons_of_mem a hb)) isSpace_of_mem_newline
    refine ⟨left, hleft, ?_⟩
    -- The end of the line is what stands in front of the next one.
    have htext : (a :: items).flatMap (fun a => line a ++ ['\n']) ++ tail =
        line a ++ (['\n'] ++ (items.flatMap (fun a => line a ++ ['\n']) ++ tail)) := by
      simp only [List.flatMap_cons, List.append_assoc]
    have hpos : 0 < (line a).length := List.length_pos_iff.mpr (hne a List.mem_cons_self)
    rw [htext, many_of_some (hline a List.mem_cons_self lead _ hlead), hmany, List.map_cons]
    simp only [List.length_append]
    omega

end Many

end Handoff.Text
