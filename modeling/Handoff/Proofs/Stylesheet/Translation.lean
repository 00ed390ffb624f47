/-
# Handoff.Proofs.Stylesheet.Translation — when flat rules become utility classes

Utility classes are made from the text of the flat rules, so the writer of the rules and their reader have
to agree on where a rule begins and ends. They agree as long as no name of a class has a brace in it and no
font family is taken for the end of its declaration: then every record comes to one result, with its own
selector and with some class. A brace in a name is enough to lose that, because the reader never gives a
selector with a brace. Braces are not among the characters that sanitizing removes.
-/

import Handoff.Proofs.Style.Declared
import Handoff.Proofs.Tag.Located
import Handoff.Proofs.Tag.Source
import Handoff.Stylesheet.Sheet

namespace Handoff

namespace Stylesheet

/-! ## Utility classes -/

theorem intercalate_cons_ne_empty {separator part : String} {parts : List String} (h : part ≠ "") :
    separator.intercalate (part :: parts) ≠ "" := by
  cases parts with
  | nil => rwa [String.intercalate_singleton]
  | cons next parts =>
    rw [String.intercalate_cons_cons]
    intro hempty
    exact h (String.append_eq_empty_iff.mp (String.append_eq_empty_iff.mp hempty).1).1

theorem bracketed_ne_empty (stem value : String) : bracketed stem value ≠ "" := by
  simp [bracketed, String.append_eq_empty_iff]

theorem spacingClass_ne_empty (stem value : String) : spacingClass stem value ≠ "" := by
  rw [spacingClass]
  split
  · simp [String.append_eq_empty_iff]
  · exact bracketed_ne_empty stem _

theorem literalClass_ne_empty (property value : String) : literalClass property value ≠ "" := by
  simp [literalClass, String.append_eq_empty_iff]

theorem paddingClasses_ne_nil (value : String) : paddingClasses value ≠ [] := by
  rw [paddingClasses]
  split <;> exact List.cons_ne_nil _ _

theorem ne_empty_of_mem_paddingClasses {value c : String} (h : c ∈ paddingClasses value) : c ≠ "" := by
  rw [paddingClasses] at h
  split at h
  all_goals simp only [List.mem_cons, List.not_mem_nil, or_false] at h
  · rw [h]
    exact spacingClass_ne_empty _ _
  · rcases h with rfl | rfl <;> exact spacingClass_ne_empty _ _
  · rcases h with rfl | rfl | rfl | rfl <;> exact spacingClass_ne_empty _ _
  · rw [h]
    exact literalClass_ne_empty _ _

/-- Every declaration comes to a class, and no class is empty. -/
theorem utilityClasses_ne (d : Declaration) :
    utilityClasses d ≠ [] ∧ ∀ c ∈ utilityClasses d, c ≠ "" := by
  have hkeywords : ∀ k ∈ keywordClasses, k.2 ≠ "" := by decide
  have hsingle (c : String) (h : c ≠ "") : [c] ≠ [] ∧ ∀ c' ∈ [c], c' ≠ "" :=
    ⟨List.cons_ne_nil _ _, List.forall_mem_singleton.mpr h⟩
  rw [utilityClasses]
  -- All but a padding come to exactly one class.
  split
  next keyword hkeyword =>
    obtain ⟨before, after, hsplit, -⟩ := List.lookup_eq_some_iff.mp hkeyword
    exact hsingle _ (hkeywords (d, keyword) (by simp [hsplit]))
  next =>
    rw [propertyClasses]
    split
    · exact ⟨paddingClasses_ne_nil _, fun c hc => ne_empty_of_mem_paddingClasses hc⟩
    · split
      · exact hsingle _ (bracketed_ne_empty _ _)
      · split
        · exact hsingle _ (bracketed_ne_empty _ _)
        · split
          next form _ =>
            cases form with
            | spacing stem => exact hsingle _ (spacingClass_ne_empty _ _)
            | verbatim stem => exact hsingle _ (bracketed_ne_empty _ _)
            | joined stem => exact hsingle _ (bracketed_ne_empty _ _)
          next => exact hsingle _ (literalClass_ne_empty _ _)

/-- A rule with declarations has classes. -/
theorem classes_ne_empty {r : Rule} (h : r.declarations ≠ []) : (ruleClasses r).classes ≠ "" := by
  obtain ⟨d, ds, hds⟩ := List.exists_cons_of_ne_nil h
  obtain ⟨hne, hclass⟩ := utilityClasses_ne d
  obtain ⟨c, cs, hcs⟩ := List.exists_cons_of_ne_nil hne
  rw [ruleClasses, hds, List.flatMap_cons, hcs, List.cons_append]
  exact intercalate_cons_ne_empty (hclass c (by rw [hcs]; exact List.mem_cons_self))

/-! ## Readable records -/

variable {t : Tag}

/-- Every record comes to one result, in the order of the records and with its own selector. -/
def Translates (t : Tag) : Prop :=
  ∃ results, toUtility (flatRules t) = .classes results ∧
    results.map RuleClasses.selector = (records t).map fun r => "." ++ Text.sanitize r.className

theorem toUtility_flatRules_of_readable (h : ∀ r ∈ records t, Readable r) :
    toUtility (flatRules t) = .classes ((records t).map fun r => ruleClasses (readRule r)) := by
  have hrules : rulesOf (flatRules t) = .ok ((records t).map readRule) := by
    rw [rulesOf, toList_flatRules, readRules_flatMap h]
    rfl
  -- No rule is left out, since every record has declarations.
  have hkept : ((records t).map readRule).filter (fun r => !r.declarations.isEmpty) =
      (records t).map readRule := by
    rw [List.filter_eq_self]
    intro rule hrule
    obtain ⟨r, hr, rfl⟩ := List.mem_map.mp hrule
    simpa [readRule] using properties_ne_nil_of_mem_records hr
  rw [toUtility, hrules]
  simp only [hkept, List.map_map]
  rfl

theorem translates_of_readable (h : ∀ r ∈ records t, Readable r) : Translates t := by
  refine ⟨_, toUtility_flatRules_of_readable h, ?_⟩
  rw [List.map_map]
  rfl

/-- If there is a flat rule, there is a class. -/
theorem sheet_utility_ne_empty (h : ∀ r ∈ records t, Readable r) (hflat : flatRules t ≠ "") :
    sheet toUtility .utility t ≠ "" := by
  -- Without records there are no flat rules.
  have hrecords : records t ≠ [] := by
    intro hnil
    rw [flatRules, hnil] at hflat
    exact hflat rfl
  obtain ⟨r, rs, hrs⟩ := List.exists_cons_of_ne_nil hrecords
  have hr : r ∈ records t := by
    rw [hrs]
    exact List.mem_cons_self
  have hdeclared : (readRule r).declarations ≠ [] := by
    simpa [readRule] using properties_ne_nil_of_mem_records hr
  rw [sheet, toUtility_flatRules_of_readable h, Outcome.text, hrs, List.map_cons, List.map_cons]
  exact intercalate_cons_ne_empty (classes_ne_empty hdeclared)

/-! ## Selectors that can be read -/

/-- Whether a name has no braces. -/
def isBraceless (name : String) : Bool :=
  name.toList.all isSelectorChar

theorem mem_of_mem_trim {cs : List Char} {c : Char} (h : c ∈ Text.trim cs) : c ∈ cs := by
  rw [Text.trim, Text.trimEnd, Text.trimStart, List.mem_reverse] at h
  exact (List.dropWhile_suffix _).mem (List.mem_reverse.mp ((List.dropWhile_suffix _).mem h))

/-- What repetition finds was found by some step. -/
theorem exists_step_of_mem_many {α : Type} {step : List Char → Option (α × List Char)} {a : α}
    {cs : List Char} (h : a ∈ (Text.many step cs).1) : ∃ ds rest, step ds = some (a, rest) := by
  induction cs using Text.many.induct step with
  | case1 cs hnone =>
    rw [Text.many_of_none hnone] at h
    cases h
  | case2 cs b rest hstep hlt found rest' hmany ih =>
    rw [Text.many_of_some hstep hlt, List.mem_cons] at h
    rcases h with rfl | h
    · exact ⟨cs, rest, hstep⟩
    · exact ih h
  | case3 cs b rest hstep hge =>
    -- A step that leaves as much text as it found is not counted.
    rw [Text.many, hstep] at h
    simp [hge] at h

/-- No selector that is read has a brace. -/
theorem isBraceless_of_takeRule {cs rest : List Char} {r : Rule} (h : takeRule cs = some (r, rest)) :
    isBraceless r.selector := by
  rw [takeRule, Option.bind_eq_bind, Option.bind_eq_some_iff] at h
  obtain ⟨⟨selector, rest'⟩, hselector, h⟩ := h
  have hr : r.selector = String.ofList selector := by
    simp only [Option.bind_eq_bind, Option.bind_eq_some_iff, Option.pure_def, Option.some.injEq,
      Prod.mk.injEq] at h
    obtain ⟨_, -, _, -, hr, -⟩ := h
    rw [← hr]
  rw [takeTrimmed] at hselector
  split at hselector
  · cases hselector
  · cases hselector
    rw [isBraceless, hr, String.toList_ofList, List.all_eq_true]
    intro c hc
    exact List.mem_takeWhile_imp (mem_of_mem_trim hc)

theorem isBraceless_of_toUtility {css : String} {results : List RuleClasses} {result : RuleClasses}
    (h : toUtility css = .classes results) (hresult : result ∈ results) :
    isBraceless result.selector := by
  rw [toUtility] at h
  split at h
  next rules hrules =>
    cases h
    obtain ⟨r, hr, rfl⟩ := List.mem_map.mp hresult
    have hmem := (List.mem_filter.mp hr).1
    have hfound : rules = (Text.many takeRule css.toList).1 := by
      rw [rulesOf, readRules] at hrules
      dsimp only at hrules
      split at hrules
      · exact (Except.ok.inj hrules).symm
      · cases hrules
    rw [hfound] at hmem
    obtain ⟨cs, rest, hstep⟩ := exists_step_of_mem_many hmem
    exact isBraceless_of_takeRule hstep
  next => cases h

/-- So every record with a result of its own has a name without braces. -/
theorem isBraceless_of_translates (h : Translates t) {r : StyleRecord} (hr : r ∈ records t) :
    isBraceless (Text.sanitize r.className) := by
  obtain ⟨results, houtcome, hselectors⟩ := h
  have hmem : "." ++ Text.sanitize r.className ∈ results.map RuleClasses.selector := by
    rw [hselectors]
    exact List.mem_map_of_mem hr
  obtain ⟨result, hresult, hsame⟩ := List.mem_map.mp hmem
  have hbraceless := isBraceless_of_toUtility houtcome hresult
  rw [hsame, isBraceless, String.toList_append, List.all_append, Bool.and_eq_true] at hbraceless
  exact hbraceless.2

/-! ## Built trees -/

theorem exists_tag_of_mem_records {r : StyleRecord} (h : r ∈ records t) :
    ∃ u ∈ t.preorder, u.head.style = r := by
  induction t using Tag.induction_on_children with
  | step head children ih =>
    have hbelow (hr : r ∈ recordsOfList children) :
        ∃ u ∈ Tag.preorder ⟨head, children⟩, u.head.style = r := by
      rw [recordsOfList_eq_flatMap, List.mem_flatMap] at hr
      obtain ⟨child, hchild, hr⟩ := hr
      obtain ⟨u, hu, hstyle⟩ := ih child hchild hr
      exact ⟨u, Tag.mem_preorder_of_mem_children hchild hu, hstyle⟩
    rw [records] at h
    split at h
    · cases h
    · split at h
      · exact hbelow h
      · rcases List.mem_cons.mp h with rfl | h
        · exact ⟨⟨head, children⟩, Tag.self_mem_preorder _, rfl⟩
        · exact hbelow h

variable {root : SceneNode} {unit : LengthUnit} {detection : Detection} {start stop : Counter}

/-- A record of a built tree is that of a visible node whose parent, if it has one, is visible too. -/
theorem exists_node_of_mem_records (hroot : root.visible)
    (hbuilt : Tag.build root unit detection start = (some t, stop)) {r : StyleRecord}
    (hr : r ∈ records t) :
    ∃ n ctx number, r = .ofProperties (SceneNode.className n ctx number) (n.declarations ctx) ∧
      (n ∈ root.preorder ∧ n.visible) ∧
      ∀ parent, ctx.parent = some parent → parent ∈ root.preorder ∧ parent.visible := by
  obtain ⟨u, hu, rfl⟩ := exists_tag_of_mem_records hr
  obtain ⟨p, hp⟩ := Tag.exists_at?_of_mem_preorder hu
  obtain ⟨n, c, hn, hbuiltAt⟩ := Tag.of_buildIn_at hbuilt hp
  obtain ⟨-, hhead, -⟩ := Tag.of_buildIn hbuiltAt
  refine ⟨n, Tag.contextAt { unit } root p, (start.skip (Tag.numberedIn (t.before p))).peek, ?_,
    SceneNode.of_shownAt? hroot hn, fun parent hparent => ?_⟩
  · rw [hhead]
    show (n.inferStyle _ _).1 = _
    rw [SceneNode.inferStyle_eq]
  · rw [Tag.contextAt] at hparent
    split at hparent
    · cases hparent
    · exact SceneNode.of_shownAt? hroot hparent

theorem isBraceless_append {a b : String} : isBraceless (a ++ b) = (isBraceless a && isBraceless b) := by
  rw [isBraceless, String.toList_append, List.all_append, isBraceless, isBraceless]

theorem isBraceless_sanitize {name : String} (h : isBraceless name) : isBraceless (Text.sanitize name) := by
  rw [isBraceless, List.all_eq_true] at h ⊢
  intro c hc
  rw [Text.sanitize, String.toList_ofList] at hc
  exact h c (List.mem_filter.mp hc).1

theorem isBraceless_toString (number : Nat) : isBraceless (toString number) := by
  rw [isBraceless, List.all_eq_true]
  intro c hc
  have hplain := (Text.isWord_toString number).plain c hc
  have hbraces : c ≠ '\x7b' ∧ c ≠ '\x7d' :=
    ⟨Text.ne_of_isPlain hplain rfl, Text.ne_of_isPlain hplain rfl⟩
  simpa [isSelectorChar] using hbraces

/-- Class names are made from display names, fixed words and numbers. -/
theorem isBraceless_className {n : SceneNode} {ctx : StyleContext} (hn : isBraceless n.name)
    (hparent : ∀ parent, ctx.parent = some parent → isBraceless parent.name) (number : Nat) :
    isBraceless (n.className ctx number) := by
  have hparentName : isBraceless ((ctx.parent.map SceneNode.name).getD "") := by
    cases h : ctx.parent with
    | none => rfl
    | some parent => exact hparent parent h
  rw [SceneNode.className]
  split
  · rw [isBraceless_append, isBraceless_append, hparentName, isBraceless_toString]
    decide
  · split
    · rw [isBraceless_append, isBraceless_toString]
      decide
    · rw [isBraceless_append, isBraceless_append, hn, isBraceless_toString, isBraceless_toString]
      rfl

/-- The records of a built tree can be read back as soon as their names have no braces, if the font
families of the scene are legible. -/
theorem readable_of_build (hroot : root.visible)
    (hfonts : ∀ n ∈ root.preorder, n.visible → n.hasLegibleFont)
    (hbuilt : Tag.build root unit detection start = (some t, stop)) {r : StyleRecord} (hr : r ∈ records t)
    (hname : isBraceless (Text.sanitize r.className)) : Readable r := by
  obtain ⟨n, ctx, number, hstyle, ⟨hn, hvisible⟩, -⟩ := exists_node_of_mem_records hroot hbuilt hr
  refine ⟨?_, fun p hp => ?_⟩
  · simpa [isBraceless, isSelectorChar] using hname
  · -- Only the font family could have been misread.
    rw [hstyle, StyleRecord.properties_ofProperties] at hp
    exact SceneNode.readable_of_mem_declarations (hfonts n hn hvisible) hp

/-- **When flat rules become utility classes.** A visible root has a tree. If the font families of its
visible texts are legible, every record comes to one result, in order and with its own selector, exactly if
no record has a brace in its sanitized name; the utility sheet then has a class as soon as there is a flat
rule. No record has a brace in its name if no visible layer has one in its display name. -/
theorem translates_build_iff (unit : LengthUnit) (detection : Detection) (start : Counter)
    (hroot : root.visible) (hfonts : ∀ n ∈ root.preorder, n.visible → n.hasLegibleFont) :
    ∃ t stop, Tag.build root unit detection start = (some t, stop) ∧
      (Translates t ↔ ∀ r ∈ records t, isBraceless (Text.sanitize r.className)) ∧
      (Translates t → flatRules t ≠ "" → sheet toUtility .utility t ≠ "") ∧
      ((∀ n ∈ root.preorder, n.visible → isBraceless n.name) →
        ∀ r ∈ records t, isBraceless (Text.sanitize r.className)) := by
  obtain ⟨t, stop, hbuilt⟩ := Tag.exists_build unit detection start hroot
  have hreadable (h : ∀ r ∈ records t, isBraceless (Text.sanitize r.className)) :
      ∀ r ∈ records t, Readable r :=
    fun r hr => readable_of_build hroot hfonts hbuilt hr (h r hr)
  have hbraceless (h : Translates t) : ∀ r ∈ records t, isBraceless (Text.sanitize r.className) :=
    fun r hr => isBraceless_of_translates h hr
  refine ⟨t, stop, hbuilt, ⟨hbraceless, fun h => ?_⟩, fun h hflat => ?_, fun hnames r hr => ?_⟩
  · exact translates_of_readable (hreadable h)
  · exact sheet_utility_ne_empty (hreadable (hbraceless h)) hflat
  · obtain ⟨n, ctx, number, hstyle, ⟨hn, hvisible⟩, hparent⟩ :=
      exists_node_of_mem_records hroot hbuilt hr
    have hdeclared : n.declarations ctx ≠ [] := by
      have hne := properties_ne_nil_of_mem_records hr
      rwa [hstyle, StyleRecord.properties_ofProperties] at hne
    apply isBraceless_sanitize
    rw [hstyle, StyleRecord.className_ofProperties _ hdeclared]
    exact isBraceless_className (hnames n hn hvisible)
      (fun parent h => hnames parent (hparent parent h).1 (hparent parent h).2) number

/-- A card with a text whose font family is two words. -/
def captioned : SceneNode :=
  .container .frame { name := "Card / small", width := 10, height := 20 } {}
    [.text { name := "Caption \x7b" } { fontName := { family := "Noto Sans" } }]

/-- The brace in the name of the text does no harm, since no class is named after a text. -/
theorem translates_build_iff_captioned :
    captioned.visible ∧ (∀ n ∈ captioned.preorder, n.visible → n.hasLegibleFont) ∧
    ∃ t stop, Tag.build captioned .px .identify {} = (some t, stop) ∧
      (∃ results, toUtility (flatRules t) = .classes results ∧
        results.map RuleClasses.selector = [".Cardsmall00", ".text1"]) ∧
      sheet toUtility .utility t ≠ "" := by
  have hroot : captioned.visible := by decide
  have hfonts : ∀ n ∈ captioned.preorder, n.visible → n.hasLegibleFont := by decide
  obtain ⟨t, stop, hbuilt, htranslates, hsheet, -⟩ := translates_build_iff .px .identify {} hroot hfonts
  have hrecords : (Tag.build captioned .px .identify {}).1.map (fun t =>
      ((records t).map fun r => "." ++ Text.sanitize r.className,
        (records t).all fun r => isBraceless (Text.sanitize r.className), flatRules t == "")) =
          some ([".Cardsmall00", ".text1"], true, false) := by
    decide
  rw [hbuilt, Option.map_some, Option.some.injEq, Prod.mk.injEq, Prod.mk.injEq] at hrecords
  obtain ⟨hselectors, hbraceless, hflat⟩ := hrecords
  have hdone := htranslates.mpr (List.all_eq_true.mp hbraceless)
  have hresults := hdone
  rw [Translates, hselectors] at hresults
  exact ⟨hroot, hfonts, t, stop, hbuilt, hresults, hsheet hdone (by simpa using hflat)⟩

/-- A card with a brace at the end of its name. -/
def bracedCard : SceneNode :=
  .container .frame { name := "Card \x7d", width := 10, height := 20 } {} []

/-- Not every tree translates: sanitizing leaves the brace of the card in its selector. -/
theorem not_forall_translates :
    ¬∀ (root : SceneNode) (unit : LengthUnit) (detection : Detection) (t : Tag) (stop : Counter),
      root.visible → Tag.build root unit detection {} = (some t, stop) → Translates t := by
  intro h
  obtain ⟨t, stop, hbuilt⟩ := Tag.exists_build .px .identify {} (show bracedCard.visible by decide)
  have htranslates := h bracedCard .px .identify t stop (by decide) hbuilt
  have hbrace : (Tag.build bracedCard .px .identify {}).1.map (fun t =>
      (records t).all fun r => isBraceless (Text.sanitize r.className)) = some false := by
    decide
  rw [hbuilt, Option.map_some, Option.some.injEq, List.all_eq_false] at hbrace
  obtain ⟨r, hr, hne⟩ := hbrace
  exact hne (isBraceless_of_translates htranslates hr)

end Stylesheet

end Handoff
