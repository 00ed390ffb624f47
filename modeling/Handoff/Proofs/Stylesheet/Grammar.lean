/-
# Handoff.Proofs.Stylesheet.Grammar — which texts are sheets

The grammar of flat rules, without a reader: gaps of spaces, runs that are not blank and go on as far as they
can, declarations, rules, and sheets as rules one behind the other. It leaves open how much of a gap belongs to
the run behind it, and the reader, which never goes back, takes all of it; that makes no difference, because
the ends of a run are trimmed. So the reader finds exactly the rules of a sheet, and on any other text it
stops in front of the first thing that is no rule.
-/

import Handoff.Proofs.Stylesheet.ReadBack
import Handoff.Proofs.Text.Sequence

namespace Handoff.Stylesheet

open Text (isBlank isSpace skipSpaces skipChar takeRun many Sequence Shortens FindsOnly)

/-! ## The grammar -/

/-- What may stand between two parts: any number of spaces, tabs and line ends. -/
def IsGap (cs : List Char) : Prop :=
  ∀ c ∈ cs, c ∈ [' ', '\t', '\r', '\n']

/-- A run of allowed characters that is not blank, and that the rest does not continue. -/
structure IsRun (allowed : Char → Prop) (run rest : List Char) : Prop where
  every : ∀ c ∈ run, allowed c
  not_blank : ∃ c ∈ run, isBlank c = false
  maximal : ∀ c ∈ rest.head?, ¬allowed c

/-- A declaration in front of a rest: a property, a colon and a value, with or without a semicolon. -/
inductive DeclarationText : Declaration → List Char → List Char → Prop where
  | intro {lead property before after value stop rest : List Char} :
      IsGap lead → property ≠ [] → (∀ c ∈ property, c.isAlphanum ∨ c = '-') → IsGap before →
      IsGap after → IsRun (fun c => c ≠ ';' ∧ c ≠ '\x7d') value (stop ++ rest) →
      stop = [] ∨ stop = [';'] →
      DeclarationText ⟨String.ofList property, String.ofList (Text.trim value)⟩
        (lead ++ (property ++ (before ++ ':' :: (after ++ (value ++ stop))))) rest

/-- A rule: a selector, and declarations between braces. -/
inductive RuleText : Rule → List Char → Prop where
  | intro {lead selector body gap : List Char} {declarations : List Declaration} :
      IsGap lead → IsRun (fun c => c ≠ '\x7b' ∧ c ≠ '\x7d') selector ('\x7b' :: (body ++ (gap ++ ['\x7d']))) →
      Sequence DeclarationText declarations body (gap ++ ['\x7d']) → IsGap gap →
      RuleText ⟨String.ofList (Text.trim selector), declarations⟩
        (lead ++ (selector ++ '\x7b' :: (body ++ (gap ++ ['\x7d']))))

/-- A sheet: rules one behind the other, and a gap. -/
inductive SheetText : List Rule → List Char → Prop where
  | intro {rules : List Rule} {body gap : List Char} :
      Sequence (fun r text _ => RuleText r text) rules body gap → IsGap gap →
      SheetText rules (body ++ gap)

/-! ## Gaps and runs -/

theorem isGap_iff {cs : List Char} : IsGap cs ↔ ∀ c ∈ cs, isSpace c := by
  simp [IsGap, isSpace, or_assoc]

theorem exists_isGap_append (cs : List Char) : ∃ gap, IsGap gap ∧ cs = gap ++ skipSpaces cs := by
  obtain ⟨gap, hgap, hsplit⟩ := Text.exists_gap_append cs
  exact ⟨gap, isGap_iff.mpr hgap, hsplit⟩

theorem skipSpaces_gap {gap : List Char} (h : IsGap gap) (cs : List Char) :
    skipSpaces (gap ++ cs) = skipSpaces cs :=
  Text.skipSpaces_append (isGap_iff.mp h) cs

/-- A run is trimmed to nothing exactly if it is blank. -/
theorem trim_ne_nil_iff {cs : List Char} : Text.trim cs ≠ [] ↔ ∃ c ∈ cs, isBlank c = false := by
  constructor
  · intro h
    by_contra hblank
    have hall : ∀ c ∈ cs, isBlank c := fun c hc => by
      by_contra hc'
      exact hblank ⟨c, hc, by simpa using hc'⟩
    apply h
    rw [Text.trim, Text.trimStart, List.dropWhile_eq_nil_iff.mpr hall]
    rfl
  · rintro ⟨c, hc, hblank⟩
    exact List.ne_nil_of_mem (Text.mem_trim hc hblank)

section Runs

variable {allowed : Char → Prop} {accepts : Char → Bool} {cs run found rest rest' : List Char}

/-- Whether a run ends depends on the first character behind it. -/
theorem IsRun.congr_rest (hrest : rest.head? = rest'.head?) (h : IsRun allowed run rest) :
    IsRun allowed run rest' :=
  ⟨h.every, h.not_blank, hrest ▸ h.maximal⟩

theorem takeTrimmed_eq_some_iff (haccepts : ∀ c, accepts c ↔ allowed c) :
    takeTrimmed accepts cs = some (found, rest) ↔
      ∃ run, cs = run ++ rest ∧ IsRun allowed run rest ∧ found = Text.trim run := by
  have hparts (run : List Char) : (cs.takeWhile accepts = run ∧ cs.dropWhile accepts = rest) ↔
      cs = run ++ rest ∧ (∀ c ∈ run, accepts c) ∧ ∀ c ∈ rest.head?, accepts c = false :=
    Text.takeWhile_eq_iff
  rw [takeTrimmed]
  constructor
  · intro h
    split at h
    next => cases h
    next hne =>
      rw [Option.some.injEq, Prod.mk.injEq] at h
      obtain ⟨hsplit, hrun, hrest⟩ := (hparts _).mp ⟨rfl, h.2⟩
      refine ⟨_, hsplit, ⟨fun c hc => (haccepts c).mp (hrun c hc), ?_, fun c hc => ?_⟩, h.1.symm⟩
      · exact trim_ne_nil_iff.mp (by simpa using hne)
      · rw [← haccepts, hrest c hc]
        exact Bool.false_ne_true
  · rintro ⟨run, hsplit, hrun, rfl⟩
    have hstop : ∀ c ∈ rest.head?, accepts c = false := fun c hc =>
      Bool.eq_false_iff.mpr fun hc' => hrun.maximal c hc ((haccepts c).mp hc')
    obtain ⟨htake, hdrop⟩ := (hparts run).mpr ⟨hsplit, fun c hc => (haccepts c).mpr (hrun.every c hc), hstop⟩
    rw [htake, hdrop]
    exact if_neg (by simpa using trim_ne_nil_iff.mpr hrun.not_blank)

/-- Skipping a gap takes the spaces at the front of the run too, which trimming would have taken. -/
theorem takeTrimmed_gap (haccepts : ∀ c, accepts c ↔ allowed c) {gap : List Char} (hgap : IsGap gap)
    (h : IsRun allowed run rest) :
    takeTrimmed accepts (skipSpaces (gap ++ (run ++ rest))) = some (Text.trim run, rest) := by
  obtain ⟨c, hc, hblank⟩ := h.not_blank
  have hspace := Text.isSpace_of_isBlank hblank
  have hskip : skipSpaces (run ++ rest) = skipSpaces run ++ rest :=
    Text.dropWhile_append_of_mem hc hspace rest
  have hrun : IsRun allowed (skipSpaces run) rest :=
    ⟨fun d hd => h.every d ((List.dropWhile_suffix isSpace).mem hd),
      ⟨c, Text.mem_dropWhile hc hspace, hblank⟩, h.maximal⟩
  rw [skipSpaces_gap hgap, hskip, takeTrimmed_eq_some_iff haccepts]
  exact ⟨_, rfl, hrun, (Text.trim_skipSpaces run).symm⟩

end Runs

theorem isSelectorChar_iff (c : Char) : isSelectorChar c ↔ c ≠ '\x7b' ∧ c ≠ '\x7d' := by
  simp [isSelectorChar]

theorem isValueChar_iff (c : Char) : isValueChar c ↔ c ≠ ';' ∧ c ≠ '\x7d' := by
  simp [isValueChar]

theorem isPropertyChar_iff (c : Char) : isPropertyChar c ↔ c.isAlphanum ∨ c = '-' := by
  simp [isPropertyChar]

/-! ## What the reader finds -/

section Declarations

variable {d : Declaration} {text rest rest' : List Char}

theorem DeclarationText.congr_rest (hrest : rest.head? = rest'.head?) (h : DeclarationText d text rest) :
    DeclarationText d text rest' := by
  obtain ⟨hlead, hne, hproperty, hbefore, hafter, hvalue, hstop⟩ := h
  exact .intro hlead hne hproperty hbefore hafter
    (hvalue.congr_rest (Text.head?_append_congr _ hrest)) hstop

theorem DeclarationText.ne_nil (h : DeclarationText d text rest) : text ≠ [] := by
  cases h
  simp

theorem findsOnly_takeDeclaration : FindsOnly DeclarationText takeDeclaration := by
  intro cs d rest h
  simp only [takeDeclaration, Option.bind_eq_bind, Option.bind_eq_some_iff, Option.pure_def,
    Option.some.injEq, Prod.mk.injEq, Prod.exists] at h
  obtain ⟨property, behind, hproperty, rest₁, hcolon, value, rest₂, hvalue, rfl, rfl⟩ := h
  obtain ⟨lead, hlead, hcs⟩ := exists_isGap_append cs
  obtain ⟨hsplit, hne, hchars, -⟩ := Text.takeRun_eq_some_iff.mp hproperty
  obtain ⟨before, hbefore, hbehind⟩ := exists_isGap_append behind
  obtain ⟨after, hafter, hrest₁⟩ := exists_isGap_append rest₁
  obtain ⟨run, hrun, hisRun, rfl⟩ := (takeTrimmed_eq_some_iff isValueChar_iff).mp hvalue
  obtain ⟨stop, hstop, hrest₂⟩ := Text.exists_stop_append ';' rest₂
  rw [Text.takeChar_eq_some_iff] at hcolon
  refine ⟨_, ?_, .intro hlead hne (fun c hc => (isPropertyChar_iff c).mp (hchars c hc)) hbefore hafter
    (hrest₂ ▸ hisRun) hstop⟩
  calc cs
    _ = lead ++ (property ++ (before ++ ':' :: (after ++ (run ++ (stop ++ skipChar ';' rest₂))))) := by
      rw [← hrest₂, ← hrun, ← hrest₁, ← hcolon, ← hbehind, ← hsplit, ← hcs]
    _ = _ := by simp only [List.append_assoc, List.cons_append]

/-- Behind a property comes a gap or the colon, so its run ends there. -/
theorem isPropertyChar_of_head?_gap {gap : List Char} (hgap : IsGap gap) (cs : List Char) :
    ∀ c ∈ (gap ++ ':' :: cs).head?, isPropertyChar c = false := by
  intro c hc
  cases gap with
  | nil =>
    cases hc
    rfl
  | cons d gap =>
    cases hc
    by_contra hproperty
    have hspace := isSpace_of_isPropertyChar (by simpa using hproperty)
    rw [isGap_iff.mp hgap c List.mem_cons_self] at hspace
    cases hspace

/-- A declaration is found in front of anything but a semicolon, which would be taken with it. -/
theorem takeDeclaration_text (h : DeclarationText d text rest) (hrest : rest.head? ≠ some ';') :
    takeDeclaration (text ++ rest) = some (d, rest) := by
  obtain @⟨lead, property, before, after, value, stop, _, hlead, hne, hproperty, hbefore, hafter, hvalue,
    hstop⟩ := h
  have hchars : ∀ c ∈ property, isPropertyChar c := fun c hc => (isPropertyChar_iff c).mpr (hproperty c hc)
  -- A property starts with no space, so no more than the gap is skipped in front of it.
  have hstart : ∀ cs, skipSpaces (property ++ cs) = property ++ cs := by
    intro cs
    obtain ⟨c, property, rfl⟩ := List.exists_cons_of_ne_nil hne
    exact Text.skipSpaces_cons (isSpace_of_isPropertyChar (hchars c List.mem_cons_self)) _
  have hrun : ∀ cs, takeRun isPropertyChar (property ++ (before ++ ':' :: cs)) =
      some (property, before ++ ':' :: cs) := fun cs =>
    Text.takeRun_eq_some_iff.mpr ⟨rfl, hne, hchars, isPropertyChar_of_head?_gap hbefore cs⟩
  have hskip : skipChar ';' (stop ++ rest) = rest := by
    rcases hstop with rfl | rfl
    · exact Text.skipChar_of_head?_ne hrest
    · exact Text.skipChar_cons ';' rest
  simp only [List.append_assoc, List.cons_append]
  rw [takeDeclaration, skipSpaces_gap hlead, hstart, hrun]
  simp only [Option.bind_eq_bind, Option.bind_some, skipSpaces_gap hbefore,
    Text.skipSpaces_cons (c := ':') rfl, Text.takeChar_cons, takeTrimmed_gap isValueChar_iff hafter hvalue,
    hskip, Option.pure_def]

theorem head?_ne_semicolon_of_gap {gap cs : List Char} (hgap : IsGap gap) (h : cs.head? ≠ some ';') :
    (gap ++ cs).head? ≠ some ';' := by
  cases gap with
  | nil => exact h
  | cons c gap =>
    intro hc
    cases hc
    exact absurd (hgap ';' List.mem_cons_self) (by decide)

/-- No declaration starts with a semicolon. -/
theorem DeclarationText.head?_ne (h : DeclarationText d text rest) (cs : List Char) :
    (text ++ cs).head? ≠ some ';' := by
  obtain @⟨lead, property, _, _, _, _, _, hlead, hne, hproperty, -, -, -, -⟩ := h
  rw [List.append_assoc]
  refine head?_ne_semicolon_of_gap hlead ?_
  obtain ⟨c, property, rfl⟩ := List.exists_cons_of_ne_nil hne
  intro hc
  cases hc
  exact absurd (hproperty ';' List.mem_cons_self) (by decide)

end Declarations

theorem shortens_takeDeclaration : Shortens takeDeclaration :=
  findsOnly_takeDeclaration.shortens fun _ _ _ h => h.ne_nil

/-- The declarations between the braces are all found. -/
theorem many_takeDeclaration {ds : List Declaration} {body gap : List Char} (hgap : IsGap gap)
    (h : Sequence DeclarationText ds body (gap ++ ['\x7d'])) (tail : List Char) :
    many takeDeclaration (body ++ (gap ++ '\x7d' :: tail)) = (ds, gap ++ '\x7d' :: tail) := by
  have hhead : (gap ++ ['\x7d']).head? = (gap ++ '\x7d' :: tail).head? :=
    Text.head?_append_congr gap rfl
  have hbehind : Sequence DeclarationText ds body (gap ++ '\x7d' :: tail) :=
    h.congr_head? .congr_rest hhead
  -- The semicolon of a declaration is optional, so what follows must not start with one.
  exact Text.many_of_sequence (fun cs => cs.head? ≠ some ';') shortens_takeDeclaration
    (fun _ _ _ => takeDeclaration_text) (fun _ _ rest hitem => hitem.head?_ne rest)
    (head?_ne_semicolon_of_gap hgap (by simp)) (takeDeclaration_brace (isGap_iff.mp hgap) tail) hbehind

section Rules

variable {r : Rule} {text : List Char}

theorem RuleText.ne_nil (h : RuleText r text) : text ≠ [] := by
  cases h
  simp

theorem findsOnly_takeRule : FindsOnly (fun r text _ => RuleText r text) takeRule := by
  intro cs r rest h
  simp only [takeRule, Option.bind_eq_bind, Option.bind_eq_some_iff, Option.pure_def,
    Option.some.injEq, Prod.mk.injEq, Prod.exists] at h
  obtain ⟨selector, behind, hselector, rest₁, hopen, rest, hclose, rfl, rfl⟩ := h
  generalize hmany : many takeDeclaration rest₁ = found at hclose ⊢
  obtain ⟨declarations, left⟩ := found
  obtain ⟨lead, hlead, hcs⟩ := exists_isGap_append cs
  obtain ⟨run, hrun, hisRun, rfl⟩ := (takeTrimmed_eq_some_iff isSelectorChar_iff).mp hselector
  obtain ⟨body, hbody, hsequence, -⟩ :=
    Text.sequence_of_many shortens_takeDeclaration findsOnly_takeDeclaration hmany
  obtain ⟨gap, hgap, hleft⟩ := exists_isGap_append left
  rw [Text.takeChar_eq_some_iff] at hopen hclose
  -- Of what stands behind the declarations only the part up to the brace is in the rule.
  have hends : Sequence DeclarationText declarations body (gap ++ ['\x7d']) := by
    refine hsequence.congr_head? .congr_rest ?_
    rw [hleft, hclose]
    exact Text.head?_append_congr gap rfl
  refine ⟨_, ?_, .intro hlead (hisRun.congr_rest (by rw [hopen]; rfl)) hends hgap⟩
  calc cs
    _ = lead ++ (run ++ '\x7b' :: (body ++ (gap ++ '\x7d' :: rest))) := by
      rw [← hclose, ← hleft, ← hbody, ← hopen, ← hrun, ← hcs]
    _ = _ := by simp only [List.append_assoc, List.cons_append, List.nil_append]

theorem takeRule_text (h : RuleText r text) (rest : List Char) : takeRule (text ++ rest) = some (r, rest) := by
  obtain @⟨lead, selector, body, gap, declarations, hlead, hselector, hsequence, hgap⟩ := h
  have hrun : ∀ cs, takeTrimmed isSelectorChar (skipSpaces (lead ++ (selector ++ '\x7b' :: cs))) =
      some (Text.trim selector, '\x7b' :: cs) := fun cs =>
    takeTrimmed_gap isSelectorChar_iff hlead (IsRun.congr_rest (by rfl) hselector)
  simp only [List.append_assoc, List.cons_append, List.nil_append]
  rw [takeRule, hrun]
  simp only [Option.bind_eq_bind, Option.bind_some, Text.takeChar_cons, many_takeDeclaration hgap hsequence,
    skipSpaces_gap hgap, Text.skipSpaces_cons (c := '\x7d') rfl, Option.pure_def]

end Rules

theorem shortens_takeRule : Shortens takeRule :=
  findsOnly_takeRule.shortens fun _ _ _ h => h.ne_nil

/-! ## Where the reader stops -/

section Sheets

variable {rules : List Rule} {cs body gap left rest : List Char}

theorem takeRule_gap (hgap : IsGap gap) (cs : List Char) : takeRule (gap ++ cs) = takeRule cs := by
  rw [takeRule, skipSpaces_gap hgap, takeRule]

theorem takeRule_eq_none_iff :
    takeRule cs = none ↔ ∀ r text behind, cs = text ++ behind → ¬RuleText r text := by
  constructor
  · rintro hnone r text behind rfl hrule
    rw [takeRule_text hrule] at hnone
    cases hnone
  · intro hno
    cases h : takeRule cs with
    | none => rfl
    | some found =>
      obtain ⟨text, hcs, hrule⟩ := findsOnly_takeRule cs found.1 found.2 h
      exact absurd hrule (hno _ _ _ hcs)

/-- The rules of a sheet are all found, if what follows starts no rule. -/
theorem many_takeRule (h : Sequence (fun r text _ => RuleText r text) rules body gap)
    (hstop : takeRule rest = none) : many takeRule (body ++ rest) = (rules, rest) :=
  Text.many_of_sequence (fun _ => True) shortens_takeRule
    (fun _ _ rest hrule _ => takeRule_text hrule rest) (fun _ _ _ _ => trivial) trivial hstop
    (h.congr_any (fun hrule => hrule) rest)

theorem readRules_of_many (h : many takeRule cs = (rules, left)) :
    readRules cs = if (skipSpaces left).isEmpty then .ok rules else .error (skipSpaces left) := by
  rw [readRules, h]

/-- What repetition leaves of a text: rules, a gap, and something that starts neither a gap nor a rule. -/
theorem exists_of_many (h : many takeRule cs = (rules, left)) :
    ∃ front, SheetText rules front ∧ cs = front ++ skipSpaces left ∧ takeRule (skipSpaces left) = none := by
  obtain ⟨body, hbody, hsequence, hstop⟩ := Text.sequence_of_many shortens_takeRule findsOnly_takeRule h
  obtain ⟨gap, hgap, hleft⟩ := exists_isGap_append left
  refine ⟨body ++ gap, .intro (hsequence.congr_any (fun hrule => hrule) gap) hgap, ?_, ?_⟩
  · rw [List.append_assoc, ← hleft, hbody]
  · rw [← takeRule_gap hgap, ← hleft, hstop]

/-- Reading a sheet and a text behind it goes up to that text. -/
theorem readRules_append (h : SheetText rules body) (hspace : skipSpaces rest = rest)
    (hstop : takeRule rest = none) :
    readRules (body ++ rest) = if rest.isEmpty then .ok rules else .error rest := by
  obtain @⟨body, gap, hsequence, hgap⟩ := h
  have hmany := many_takeRule hsequence ((takeRule_gap hgap rest).trans hstop)
  rw [List.append_assoc, readRules_of_many hmany, skipSpaces_gap hgap, hspace]

theorem readRules_eq_ok_iff : readRules cs = .ok rules ↔ SheetText rules cs := by
  constructor
  · intro h
    cases hmany : many takeRule cs with
    | mk found left =>
      obtain ⟨front, hsheet, hcs, -⟩ := exists_of_many hmany
      rw [readRules_of_many hmany] at h
      split at h
      next hempty =>
        cases h
        rw [List.isEmpty_iff] at hempty
        rwa [hcs, hempty, List.append_nil]
      next => cases h
  · intro h
    have hread : readRules (cs ++ []) = .ok rules := readRules_append h rfl rfl
    rwa [List.append_nil] at hread

end Sheets

/-- Where reading stops without an end: behind a sheet, and in front of a text that starts neither with a space
nor with a rule. -/
structure StopsAt (css rest : String) : Prop where
  split : ∃ front rules, rulesOf front = .ok rules ∧ css = front ++ rest
  ne : rest ≠ ""
  no_space : ∀ c ∈ rest.toList.head?, ¬IsGap [c]
  no_rule : ∀ r text behind, rest.toList = text ++ behind → ¬RuleText r text

section Strings

variable {css rest : String} {rules : List Rule}

theorem rulesOf_eq_ok_iff : rulesOf css = .ok rules ↔ SheetText rules css.toList := by
  rw [← readRules_eq_ok_iff, rulesOf]
  cases readRules css.toList with
  | ok found =>
    show (Except.ok found : Except String (List Rule)) = .ok rules ↔ _
    rw [Except.ok.injEq, Except.ok.injEq]
  | error left => constructor <;> intro h <;> cases h

theorem rulesOf_eq_error_iff : rulesOf css = .error rest ↔ readRules css.toList = .error rest.toList := by
  rw [rulesOf]
  cases readRules css.toList with
  | ok found => constructor <;> intro h <;> cases h
  | error left =>
    show (Except.error (String.ofList left) : Except String (List Rule)) = .error rest ↔ _
    rw [Except.error.injEq, Except.error.injEq]
    exact ⟨fun h => by rw [← h, String.toList_ofList], fun h => by rw [h, String.ofList_toList]⟩

theorem stopsAt_of_rulesOf (h : rulesOf css = .error rest) : StopsAt css rest := by
  rw [rulesOf_eq_error_iff] at h
  cases hmany : many takeRule css.toList with
  | mk rules left =>
    obtain ⟨front, hsheet, hcss, hstop⟩ := exists_of_many hmany
    rw [readRules_of_many hmany] at h
    split at h
    next => cases h
    next hne =>
      rw [Except.error.injEq] at h
      rw [h] at hcss hne hstop
      refine ⟨⟨String.ofList front, rules, ?_, ?_⟩, by simpa using hne, fun c hc hgap => ?_,
        takeRule_eq_none_iff.mp hstop⟩
      · rwa [rulesOf_eq_ok_iff, String.toList_ofList]
      · rw [← String.toList_inj, String.toList_append, String.toList_ofList, hcss]
      · -- The gap has been skipped, and skipping takes all of it.
        have hhead := List.head?_dropWhile_not isSpace left
        rw [← skipSpaces, h, Option.mem_def.mp hc] at hhead
        simp [isGap_iff.mp hgap c List.mem_cons_self] at hhead

theorem rulesOf_of_stopsAt (h : StopsAt css rest) : rulesOf css = .error rest := by
  obtain ⟨front, rules, hfront, rfl⟩ := h.split
  have hspace : skipSpaces rest.toList = rest.toList := by
    cases hrest : rest.toList with
    | nil => rfl
    | cons c cs =>
      have hc : ¬IsGap [c] := h.no_space c (by rw [hrest]; rfl)
      exact Text.skipSpaces_cons (by simpa [isGap_iff] using hc) cs
  rw [rulesOf_eq_error_iff, String.toList_append,
    readRules_append (rulesOf_eq_ok_iff.mp hfront) hspace (takeRule_eq_none_iff.mpr h.no_rule)]
  exact if_neg (by simpa using h.ne)

end Strings

/-- **The reader accepts exactly the sheets.** On any other text it stops, and what it reports is the one text
that has a sheet in front of it and that starts neither with a space nor with a rule. No step of its repetitions
leaves as much text as it found, so none is cut short. -/
theorem rulesOf_eq_iff (css : String) :
    (∀ rules, rulesOf css = .ok rules ↔ SheetText rules css.toList) ∧
      ((∃ rest, rulesOf css = .error rest) ↔ ¬∃ rules, SheetText rules css.toList) ∧
      (∀ rest, rulesOf css = .error rest ↔ StopsAt css rest) ∧
      Shortens takeDeclaration ∧ Shortens takeRule := by
  refine ⟨fun _ => rulesOf_eq_ok_iff, ?_, fun _ => ⟨stopsAt_of_rulesOf, rulesOf_of_stopsAt⟩,
    shortens_takeDeclaration, shortens_takeRule⟩
  simp only [← rulesOf_eq_ok_iff]
  cases rulesOf css with
  | ok rules => simp
  | error rest => simp

/-- The gap behind the last rule belongs to the sheet, not to what is reported. -/
example : rulesOf ".a \x7b b: c \x7d ; d" = .error "; d" := by cbv

end Handoff.Stylesheet
