/-
# Handoff.Proofs.Json.Layout — what is printed is read back

A printed text is put together from smaller ones, and so are its tokens. `Spells` says what a part of a text
is cut into wherever it stands, provided that a bare run at its end is not carried on; then marks, blanks,
quoted texts and bare runs can be set beside each other freely. The indented layout of a value spells the
value, and so it is read as the value. The one condition is that the numbers in it are read back.
-/

import Handoff.Proofs.Json.Quoted
import Handoff.Proofs.Json.Spelling

namespace Handoff.Json

/-! ## Parts of a text -/

/-- A bare run before this text ends before it. -/
def EndsRun : List Char → Prop
  | [] => True
  | c :: _ => ¬IsBare c

theorem EndsRun.append {cs rest : List Char} (h : EndsRun cs) (hrest : EndsRun rest) :
    EndsRun (cs ++ rest) := by
  cases cs with
  | nil => exact hrest
  | cons c cs => exact h

/-- The tokens of a part of a text. -/
def Spells (cs : List Char) (tokens : List Token) : Prop :=
  ∃ pieces : List Piece, pieces.mapM Piece.token = .ok tokens ∧ ∀ found rest, EndsRun rest →
    cutFrom found (.outside []) (cs ++ rest) = cutFrom (pieces.reverse ++ found) (.outside []) rest

section Parts

variable {cs ds : List Char} {ts us : List Token} {c : Char}

/-- A text that spells tokens has them. -/
theorem Spells.tokens_eq (h : Spells cs ts) : tokens cs = .ok ts := by
  obtain ⟨pieces, hpieces, hcut⟩ := h
  -- The end of the text ends a run, so the whole text is a part with nothing behind it.
  have hall := hcut [] [] trivial
  rw [List.append_nil, List.append_nil] at hall
  rw [tokens, cut, hall]
  show (pieces.reverse.reverse.mapM Piece.token) = _
  rw [List.reverse_reverse, hpieces]

theorem spells_nil : Spells [] [] :=
  ⟨[], rfl, fun _ _ _ => rfl⟩

theorem Spells.append (h : Spells cs ts) (h' : Spells ds us) (hends : EndsRun ds) :
    Spells (cs ++ ds) (ts ++ us) := by
  obtain ⟨pieces, hpieces, hcut⟩ := h
  obtain ⟨pieces', hpieces', hcut'⟩ := h'
  refine ⟨pieces ++ pieces', mapM_append_eq_ok hpieces hpieces', fun found rest hrest => ?_⟩
  rw [List.append_assoc, hcut _ _ (hends.append hrest), hcut' _ _ hrest, List.reverse_append,
    List.append_assoc]

theorem isMark_ne_quote (h : isMark c) : c ≠ '"' := by
  rintro rfl
  cases h

/-- A blank is neither a quote nor a mark. -/
theorem ne_quote_of_isSpace (h : Text.isSpace c) : c ≠ '"' ∧ isMark c = false := by
  simp only [Text.isSpace, Bool.or_eq_true, beq_iff_eq] at h
  rcases h with ((rfl | rfl) | rfl) | rfl <;> decide

theorem Spells.mark (hmark : isMark c) (h : Spells cs ts) : Spells (c :: cs) (.mark c :: ts) := by
  obtain ⟨pieces, hpieces, hcut⟩ := h
  have hone : [Piece.mark c].mapM Piece.token = .ok [.mark c] := rfl
  refine ⟨[.mark c] ++ pieces, mapM_append_eq_ok hone hpieces, fun found rest hrest => ?_⟩
  rw [List.cons_append, cutFrom, if_neg (isMark_ne_quote hmark), if_pos hmark]
  show cutFrom (.mark c :: found) (.outside []) (cs ++ rest) = _
  rw [hcut _ _ hrest, List.reverse_append, List.append_assoc]
  rfl

theorem Spells.blank (hblank : Text.isSpace c) (h : Spells cs ts) : Spells (c :: cs) ts := by
  obtain ⟨pieces, hpieces, hcut⟩ := h
  refine ⟨pieces, hpieces, fun found rest hrest => ?_⟩
  obtain ⟨hquote, hmark⟩ := ne_quote_of_isSpace hblank
  rw [List.cons_append, cutFrom, if_neg hquote, hmark, if_neg Bool.false_ne_true, if_pos hblank]
  exact hcut found rest hrest

theorem Spells.margin (depth : Nat) (h : Spells cs ts) : Spells ((margin depth).toList ++ cs) ts := by
  rw [Json.margin, String.toList_ofList]
  induction 2 * depth with
  | zero => exact h
  | succ n ih => exact ih.blank rfl

theorem spells_quote (s : String) : Spells (quote s).toList [.text s] := by
  refine ⟨[.quoted (s.toList.flatMap escapeChar)], ?_, fun found rest _ => ?_⟩
  · have htoken : Piece.token (.quoted (s.toList.flatMap escapeChar)) = .ok (.text s) := by
      rw [Piece.token, unescape_flatMap_escapeChar]
      exact congrArg (fun s => Except.ok (Token.text s)) String.ofList_toList
    rw [List.mapM_cons, htoken]
    rfl
  · rw [quote, String.toList_ofList, List.cons_append, List.cons_append, List.append_assoc, cutFrom, if_pos rfl]
    exact cutFrom_inside_escaped s.toList

/-- The characters of a run are gathered. -/
theorem cutFrom_run {run : List Char} (h : ∀ c ∈ cs, IsBare c) (found : List Piece) (rest : List Char) :
    cutFrom found (.outside run) (cs ++ rest) = cutFrom found (.outside (cs.reverse ++ run)) rest := by
  induction cs generalizing run with
  | nil => rfl
  | cons c cs ih =>
    obtain ⟨⟨hquote, hmark, hspace⟩, hcs⟩ := List.forall_mem_cons.mp h
    rw [List.cons_append, cutFrom, if_neg hquote, hmark, if_neg Bool.false_ne_true, hspace,
      if_neg Bool.false_ne_true, ih hcs, List.reverse_cons, List.append_assoc]
    rfl

/-- They make a piece where the run ends. -/
theorem cutFrom_closeRun {run rest : List Char} (hrest : EndsRun rest) (found : List Piece) :
    cutFrom found (.outside run) rest = cutFrom (closeRun run found) (.outside []) rest := by
  cases rest with
  | nil => rfl
  | cons c rest =>
    have hclosed : closeRun [] (closeRun run found) = closeRun run found := rfl
    rw [cutFrom, cutFrom, hclosed]
    split
    · rfl
    next hquote =>
      split
      · rfl
      next hmark =>
        split
        · rfl
        next hspace => exact absurd ⟨hquote, Bool.eq_false_iff.mpr hmark, Bool.eq_false_iff.mpr hspace⟩ hrest

theorem spells_bare {v : Json} (h : readBare cs = .ok v) : Spells cs [.scalar v] := by
  obtain ⟨hne, hbare, -⟩ := of_readBare h
  refine ⟨[.bare cs], ?_, fun found rest hrest => ?_⟩
  · rw [List.mapM_cons, Piece.token, h]
    rfl
  · have hclose : closeRun (cs.reverse ++ []) found = [.bare cs].reverse ++ found := by
      rw [List.append_nil, closeRun, if_neg (by simpa using hne), List.reverse_reverse]
      rfl
    rw [cutFrom_run hbare, cutFrom_closeRun hrest, hclose]

end Parts

/-! ## Blocks -/

section Blocks

variable {write : α → String} {spell : α → List Token} {items : List α}

/-- Entries with commas between them, each on a line of its own. -/
theorem spells_lines (depth : Nat) (h : ∀ a ∈ items, Spells (write a).toList (spell a)) :
    Spells (",\n".intercalate ((items.map write).map (margin depth ++ ·))).toList
      ([Token.mark ','].intercalate (items.map spell)) := by
  induction items with
  | nil => exact spells_nil
  | cons a items ih =>
    obtain ⟨hfirst, hrest⟩ := List.forall_mem_cons.mp h
    have hline : Spells (margin depth ++ write a).toList (spell a) := by
      rw [String.toList_append]
      exact hfirst.margin depth
    cases items with
    | nil => simpa using hline
    | cons b items =>
      rw [List.map_cons, List.map_cons, List.map_cons, List.map_cons, String.intercalate_cons_cons,
        String.toList_append, String.toList_append, List.append_assoc, List.map_cons, List.map_cons,
        List.intercalate_cons_cons, List.append_assoc]
      have hcomma : ¬IsBare ',' := by decide
      exact hline.append (.mark rfl (.blank rfl (ih hrest))) hcomma

theorem spells_block {opening closing : String} {o c : Char} (hopening : opening.toList = [o])
    (hclosing : closing.toList = [c]) (ho : isMark o) (hc : isMark c) (depth : Nat)
    (h : ∀ a ∈ items, Spells (write a).toList (spell a)) :
    Spells (block opening closing depth (items.map write)).toList (enclosed o c (items.map spell)) := by
  have hclose : Spells [c] [.mark c] := .mark hc spells_nil
  unfold block enclosed
  split
  next hempty =>
    have hnil : items = [] := List.map_eq_nil_iff.mp (List.isEmpty_iff.mp hempty)
    subst hnil
    rw [String.toList_append, hopening, hclosing]
    exact .mark ho hclose
  next =>
    simp only [String.toList_append, hopening, hclosing, List.append_assoc, List.cons_append,
      List.nil_append]
    have hbreak : ¬IsBare '\n' := by decide
    exact .mark ho (.blank rfl ((spells_lines (depth + 1) h).append (.blank rfl (hclose.margin depth)) hbreak))

end Blocks

/-! ## The indented layout -/

theorem indented_array (depth : Nat) (items : List Json) :
    (array items).indented depth = block "[" "]" depth (items.map (indented (depth + 1))) := by
  rw [indented]
  congr 1
  induction items with
  | nil => rw [indentedItems, List.map_nil]
  | cons item items ih => rw [indentedItems, List.map_cons, ih]

theorem indented_object (depth : Nat) (members : List (String × Json)) :
    (object members).indented depth =
      block "\x7b" "\x7d" depth (members.map fun m => quote m.1 ++ ": " ++ m.2.indented (depth + 1)) := by
  rw [indented]
  congr 1
  induction members with
  | nil => rw [indentedMembers, List.map_nil]
  | cons m members ih => rw [indentedMembers, List.map_cons, ih]

/-- The indented layout of a value spells the value. -/
theorem spells_indented {v : Json} (h : ∀ k ∈ v.numbers, k.ReadsBack) (depth : Nat) :
    Spells (v.indented depth).toList v.spelling := by
  induction v using induction_on_parts generalizing depth with
  | step v ih =>
    have hparts : ∀ p ∈ v.parts, Spells (p.indented (depth + 1)).toList p.spelling :=
      fun p hp => ih p hp (fun k hk => h k (mem_numbers_of_mem_parts hp hk)) (depth + 1)
    cases v with
    | null => rw [indented, spelling]; exact spells_bare rfl
    | bool value => rw [indented, spelling]; cases value <;> exact spells_bare rfl
    | number value => rw [indented, spelling]; exact spells_bare (h value (by simp [numbers]))
    | text value => rw [indented, spelling]; exact spells_quote value
    | array items =>
      rw [indented_array, spelling_array]
      exact spells_block rfl rfl rfl rfl depth hparts
    | object members =>
      rw [indented_object, spelling_object]
      apply spells_block rfl rfl rfl rfl depth
      intro m hm
      have hvalue := hparts m.2 (List.mem_map_of_mem hm)
      have hcolon : ¬IsBare ':' := by decide
      rw [String.toList_append, String.toList_append, List.append_assoc]
      exact (spells_quote m.1).append (.mark rfl (.blank rfl hvalue)) hcolon

/-- **What is printed is read back**, if its nesting fits and its numbers are read back. -/
theorem readWithin_indented {limit : Nat} {v : Json} (h : FitsIn Number.ReadsBack limit v) :
    readWithin limit (v.indented 0) = .ok v := by
  rw [readWithin, (spells_indented h.numbers 0).tokens_eq]
  exact ofTokens_spelling h.depth

end Handoff.Json
