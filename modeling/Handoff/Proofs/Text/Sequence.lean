/-
# Handoff.Proofs.Text.Sequence — repetition and the texts that it reads

A grammar relates an item to its texts. Some texts are only whole in front of something that cannot be added
to them, so the relation is told what follows. A `Sequence` is a list of items with their texts one behind the
other. `many` goes as far as it can and never back, and still it reads exactly the sequences: a step that only
finds items makes it find a sequence, and a step that finds every item makes it find all of a sequence, as long
as there is none behind the last one.
-/

import Handoff.Proofs.Text.Front
import Mathlib.Data.List.TakeWhile

namespace Handoff.Text

/-! ## What single pieces take -/

section Pieces

variable {accepts : Char → Bool} {cs run rest : List Char}

theorem exists_gap_append (cs : List Char) :
    ∃ gap, (∀ c ∈ gap, isSpace c) ∧ cs = gap ++ skipSpaces cs :=
  ⟨cs.takeWhile isSpace, fun _ hc => List.mem_takeWhile_imp hc, List.takeWhile_append_dropWhile.symm⟩

theorem takeChar_eq_some_iff {c : Char} : takeChar c cs = some rest ↔ cs = c :: rest := by
  cases cs with
  | nil => simp [takeChar]
  | cons d ds =>
    rw [takeChar, List.cons.injEq]
    by_cases h : d = c
    · simp [h]
    · simp [h]

theorem exists_stop_append (c : Char) (cs : List Char) :
    ∃ stop, (stop = [] ∨ stop = [c]) ∧ cs = stop ++ skipChar c cs := by
  cases cs with
  | nil => exact ⟨[], .inl rfl, rfl⟩
  | cons d ds =>
    rw [skipChar]
    split
    next h => exact ⟨[c], .inr rfl, by rw [h]; rfl⟩
    next h => exact ⟨[], .inl rfl, rfl⟩

theorem skipChar_of_head?_ne {c : Char} (h : cs.head? ≠ some c) : skipChar c cs = cs := by
  cases cs with
  | nil => rfl
  | cons d ds => exact if_neg fun hd => h (congrArg some hd)

/-- The longest run at the front of a text is the one that the rest does not continue. -/
theorem takeWhile_eq_iff :
    (cs.takeWhile accepts = run ∧ cs.dropWhile accepts = rest) ↔
      cs = run ++ rest ∧ (∀ c ∈ run, accepts c) ∧ ∀ c ∈ rest.head?, accepts c = false := by
  constructor
  · rintro ⟨rfl, rfl⟩
    refine ⟨List.takeWhile_append_dropWhile.symm, fun c hc => List.mem_takeWhile_imp hc, fun c hc => ?_⟩
    have hhead := List.head?_dropWhile_not accepts cs
    rw [Option.mem_def.mp hc] at hhead
    simpa using hhead
  · rintro ⟨rfl, hrun, hrest⟩
    rw [List.takeWhile_append_of_pos hrun, List.dropWhile_append_of_pos hrun]
    cases rest with
    | nil => exact ⟨List.append_nil run, rfl⟩
    | cons c rest =>
      have hc : ¬accepts c := by simp [hrest c rfl]
      exact ⟨by rw [List.takeWhile_cons_of_neg hc, List.append_nil], List.dropWhile_cons_of_neg hc⟩

theorem takeRun_eq_some_iff :
    takeRun accepts cs = some (run, rest) ↔
      cs = run ++ rest ∧ run ≠ [] ∧ (∀ c ∈ run, accepts c) ∧ ∀ c ∈ rest.head?, accepts c = false := by
  have hparts : (cs.takeWhile accepts = run ∧ cs.dropWhile accepts = rest) ↔
      cs = run ++ rest ∧ (∀ c ∈ run, accepts c) ∧ ∀ c ∈ rest.head?, accepts c = false :=
    takeWhile_eq_iff
  rw [takeRun]
  constructor
  · intro h
    split at h
    next => cases h
    next hne =>
      rw [Option.some.injEq, Prod.mk.injEq] at h
      obtain ⟨hsplit, hrun, hrest⟩ := hparts.mp h
      exact ⟨hsplit, by rw [← h.1]; simpa using hne, hrun, hrest⟩
  · rintro ⟨hsplit, hne, hrun, hrest⟩
    obtain ⟨htake, hdrop⟩ := hparts.mpr ⟨hsplit, hrun, hrest⟩
    rw [htake, hdrop]
    exact if_neg (by simpa using hne)

end Pieces

/-! ## Sequences -/

/-- Items with their texts one behind the other, in front of a rest. -/
inductive Sequence {α : Type} (Item : α → List Char → List Char → Prop) :
    List α → List Char → List Char → Prop where
  | nil (rest : List Char) : Sequence Item [] [] rest
  | cons {a : α} {as : List α} {text more rest : List Char} :
      Item a text (more ++ rest) → Sequence Item as more rest → Sequence Item (a :: as) (text ++ more) rest

section Many

variable {α : Type} {Item : α → List Char → List Char → Prop} {step : List Char → Option (α × List Char)}
variable {as : List α} {cs text rest rest' : List Char}

/-- A sequence stands in front of another rest, if its items stand in front of what looks the same to them. -/
theorem Sequence.congr_rest (Same : List Char → List Char → Prop)
    (happend : ∀ more {rest rest'}, Same rest rest' → Same (more ++ rest) (more ++ rest'))
    (hitem : ∀ {a text rest rest'}, Same rest rest' → Item a text rest → Item a text rest')
    (hrest : Same rest rest') (h : Sequence Item as text rest) : Sequence Item as text rest' := by
  induction h with
  | nil rest => exact .nil rest'
  | @cons a as text more rest hfirst hmore ih => exact .cons (hitem (happend more hrest) hfirst) (ih hrest)

theorem head?_append_congr (more : List Char) (h : rest.head? = rest'.head?) :
    (more ++ rest).head? = (more ++ rest').head? := by
  rw [List.head?_append, List.head?_append, h]

/-- Items that look at the first character behind them at most. -/
theorem Sequence.congr_head?
    (hitem : ∀ {a text rest rest'}, rest.head? = rest'.head? → Item a text rest → Item a text rest')
    (hrest : rest.head? = rest'.head?) (h : Sequence Item as text rest) : Sequence Item as text rest' :=
  h.congr_rest (fun rest rest' => rest.head? = rest'.head?) (fun more _ _ => head?_append_congr more) hitem
    hrest

/-- Items that do not look behind them. -/
theorem Sequence.congr_any (hitem : ∀ {a text rest rest'}, Item a text rest → Item a text rest')
    (rest' : List Char) (h : Sequence Item as text rest) : Sequence Item as text rest' :=
  h.congr_rest (fun _ _ => True) (fun _ _ _ _ => trivial) (fun _ => hitem) trivial

/-- Whether a step leaves less text than it found. -/
def Shortens (step : List Char → Option (α × List Char)) : Prop :=
  ∀ cs a rest, step cs = some (a, rest) → rest.length < cs.length

/-- Whether all that a step finds are items. -/
def FindsOnly (Item : α → List Char → List Char → Prop) (step : List Char → Option (α × List Char)) :
    Prop :=
  ∀ cs a rest, step cs = some (a, rest) → ∃ text, cs = text ++ rest ∧ Item a text rest

theorem FindsOnly.shortens (h : FindsOnly Item step) (hne : ∀ a text rest, Item a text rest → text ≠ []) :
    Shortens step := by
  intro cs a rest hstep
  obtain ⟨text, rfl, hitem⟩ := h cs a rest hstep
  have hpos := List.length_pos_iff.mpr (hne a text rest hitem)
  rw [List.length_append]
  omega

/-- Repetition finds a sequence, and stops where the step fails. -/
theorem sequence_of_many (hshort : Shortens step) (hfinds : FindsOnly Item step)
    (h : many step cs = (as, rest)) :
    ∃ text, cs = text ++ rest ∧ Sequence Item as text rest ∧ step rest = none := by
  fun_induction many step cs generalizing as with
  | case1 cs hstep =>
    cases h
    exact ⟨[], rfl, .nil _, hstep⟩
  | case2 cs a behind hstep _ found rest' hmany ih =>
    cases h
    obtain ⟨text, htext, hitem⟩ := hfinds cs a behind hstep
    obtain ⟨more, hmore, hsequence, hstop⟩ := ih hmany
    refine ⟨text ++ more, ?_, .cons (hmore ▸ hitem) hsequence, hstop⟩
    rw [htext, List.append_assoc, ← hmore]
  | case3 cs a behind hstep hlong =>
    -- Repetition gives up on a step that takes nothing, and this one always takes something.
    exact absurd (hshort cs a behind hstep) hlong

/-- **Repetition finds all of a sequence.** The step has to find every item in front of what may follow one:
the text of an item, or the rest, where it fails. -/
theorem many_of_sequence (Follows : List Char → Prop) (hshort : Shortens step)
    (hfinds : ∀ a text rest, Item a text rest → Follows rest → step (text ++ rest) = some (a, rest))
    (hstart : ∀ a text rest, Item a text rest → Follows (text ++ rest))
    (hrest : Follows rest) (hstop : step rest = none) (h : Sequence Item as text rest) :
    many step (text ++ rest) = (as, rest) := by
  induction h with
  | nil rest => exact many_of_none hstop
  | @cons a as text more rest hfirst hmore ih =>
    -- Behind the item comes the text of the next one, or the rest.
    have hfollows : Follows (more ++ rest) := by
      cases hmore with
      | nil rest => exact hrest
      | cons hnext hlater =>
        rw [List.append_assoc]
        exact hstart _ _ _ hnext
    have hstep := hfinds a text (more ++ rest) hfirst hfollows
    rw [List.append_assoc, many_of_some hstep (hshort _ _ _ hstep), ih hrest hstop]

end Many

end Handoff.Text
