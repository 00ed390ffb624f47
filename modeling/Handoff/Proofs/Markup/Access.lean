/-
# Handoff.Proofs.Markup.Access — which names can be looked up

A class is looked up after a dot, where only an identifier can stand, or between brackets, in a text between double
quotes that is written as it is. Which of the two is written depends on the signs `.`, `-` and `_` alone. So a name
without them that is no identifier is written after a dot, and a name with one of them and with a quote in it is
written between quotes. A class name has numbers behind the name that it is made from, and they make no difference:
its lookup is right if the lookup of that name is.
-/

import Handoff.Proofs.Markup.Written
import Handoff.Proofs.Tag.Selector
import Handoff.Proofs.Text.Blank

namespace Handoff.Markup

/-! ## Texts in quotes -/

/-- The line ends of a script. -/
def lineEnds : List Char :=
  ['\n', '\r', '\u2028', '\u2029']

/-- Whether a text can be written between double quotes as it is. -/
def IsQuotable (s : String) : Prop :=
  ∀ c ∈ s.toList, c ≠ '"' ∧ c ≠ '\\' ∧ c ∉ lineEnds

/-- Sanitizing removes the line ends with the other blanks. -/
theorem isQuotable_sanitize_iff {name : String} :
    IsQuotable (Text.sanitize name) ↔
      '"' ∉ (Text.sanitize name).toList ∧ '\\' ∉ (Text.sanitize name).toList := by
  have hlineEnd (c : Char) (hc : c ∈ (Text.sanitize name).toList) : c ∉ lineEnds := by
    intro hend
    have hblanks : lineEnds.all Text.isBlank := by decide
    have hblank := List.all_eq_true.mp hblanks c hend
    rw [Text.isBlank_of_mem_sanitize hc] at hblank
    cases hblank
  constructor
  · intro h
    exact ⟨fun hquote => (h _ hquote).1 rfl, fun hbackslash => (h _ hbackslash).2.1 rfl⟩
  · rintro ⟨hquote, hbackslash⟩ c hc
    exact ⟨fun heq => hquote (heq ▸ hc), fun heq => hbackslash (heq ▸ hc), hlineEnd c hc⟩

/-! ## Identifiers -/

/-- Which characters are letters and digits. Beyond ASCII this is left open. -/
structure Alphabet where
  isLetter : Char → Bool
  isDigit : Char → Bool
  isLetter_eq : ∀ c, c.toNat < 128 → isLetter c = c.isAlpha
  isDigit_eq : ∀ c, c.toNat < 128 → isDigit c = c.isDigit

/-- Whether a text is written in the letters of ASCII. -/
def isLettered (s : String) : Bool :=
  s.toList.all fun c => c.toNat < 128 && c.isAlpha

namespace Alphabet

/-- No letters and digits but those of ASCII. -/
def ascii : Alphabet where
  isLetter := Char.isAlpha
  isDigit := Char.isDigit
  isLetter_eq _ _ := rfl
  isDigit_eq _ _ := rfl

variable (A : Alphabet) {c d : Char} {s front behind : String}

def starts (c : Char) : Bool :=
  A.isLetter c || c == '_' || c == '$'

def continues (c : Char) : Bool :=
  A.starts c || A.isDigit c

/-- Whether a text is an identifier. -/
def IsIdentifier (s : String) : Prop :=
  ∃ c cs, s.toList = c :: cs ∧ A.starts c ∧ ∀ d ∈ cs, A.continues d

/-- A letter or a digit. -/
def isAlphanum (c : Char) : Bool :=
  A.isLetter c || A.isDigit c

theorem continues_of_isAlphanum (h : A.isAlphanum c) : A.continues c := by
  rw [isAlphanum, Bool.or_eq_true] at h
  rw [continues, starts]
  rcases h with h | h <;> simp [h]

/-- No sign of ASCII is a letter or a digit. -/
theorem ne_of_isAlphanum (h : A.isAlphanum c) (hd : d.toNat < 128) (hsign : d.isAlphanum = false) : c ≠ d := by
  rintro rfl
  rw [isAlphanum, A.isLetter_eq c hd, A.isDigit_eq c hd] at h
  exact absurd h (by simpa [Char.isAlphanum] using hsign)

theorem isAlphanum_of_isDigit (h : c.isDigit) : A.isAlphanum c := by
  have hascii : c.toNat < 128 := by
    have := (Text.isDigit_iff.mp h).2
    omega
  rw [isAlphanum, A.isDigit_eq c hascii, h, Bool.or_true]

/-- An identifier does not start with a digit. -/
theorem not_starts_of_isDigit (h : c.isDigit) : A.starts c = false := by
  have hrange := Text.isDigit_iff.mp h
  have hletter : A.isLetter c = false := by
    rw [A.isLetter_eq c (by omega)]
    exact Text.isAlpha_of_isDigit h
  simp [starts, hletter, Text.ne_of_isDigit h (show Char.isDigit '_' = false from rfl),
    Text.ne_of_isDigit h (show Char.isDigit '$' = false from rfl)]

theorem isIdentifier_iff {cs : List Char} (hs : s.toList = c :: cs) :
    A.IsIdentifier s ↔ A.starts c ∧ ∀ d ∈ cs, A.continues d := by
  constructor
  · rintro ⟨_, _, hparts, h⟩
    cases hs.symm.trans hparts
    exact h
  · exact fun h => ⟨c, cs, hs, h⟩

theorem isIdentifier_append_iff (hne : front ≠ "") (hbehind : ∀ c ∈ behind.toList, A.continues c) :
    A.IsIdentifier (front ++ behind) ↔ A.IsIdentifier front := by
  obtain ⟨c, cs, hfront⟩ : ∃ c cs, front.toList = c :: cs :=
    List.exists_cons_of_ne_nil (by simpa using hne)
  have hboth : (front ++ behind).toList = c :: (cs ++ behind.toList) := by
    rw [String.toList_append, hfront, List.cons_append]
  rw [A.isIdentifier_iff hboth, A.isIdentifier_iff hfront, List.forall_mem_append, and_iff_left hbehind]

end Alphabet

/-! ## Lookups -/

/-- No lookup has both forms. -/
theorem dot_ne_bracket (name name' : String) : "styles." ++ name ≠ "styles[" ++ quoted name' ++ "]" := by
  intro h
  have hlist := congrArg String.toList h
  simp at hlist

namespace Alphabet

variable (A : Alphabet) {s front behind : String}

/-- The lookups of a class that a script can have. -/
inductive IsAccess : String → Prop where
  | dot (name : String) (h : A.IsIdentifier name) : IsAccess ("styles." ++ name)
  | bracket (name : String) (h : IsQuotable name) : IsAccess ("styles[" ++ quoted name ++ "]")

theorem isAccess_iff {lookup : String} :
    A.IsAccess lookup ↔
      (∃ name, lookup = "styles." ++ name ∧ A.IsIdentifier name) ∨
        ∃ name, lookup = "styles[" ++ quoted name ++ "]" ∧ IsQuotable name := by
  constructor
  · rintro (⟨name, h⟩ | ⟨name, h⟩)
    · exact .inl ⟨name, rfl, h⟩
    · exact .inr ⟨name, rfl, h⟩
  · rintro (⟨name, rfl, h⟩ | ⟨name, rfl, h⟩)
    · exact .dot name h
    · exact .bracket name h

theorem isAccess_dot_iff {name : String} : A.IsAccess ("styles." ++ name) ↔ A.IsIdentifier name := by
  rw [isAccess_iff]
  constructor
  · rintro (⟨name', hname, h⟩ | ⟨name', hname, -⟩)
    · rw [String.append_right_inj] at hname
      rwa [hname]
    · exact absurd hname (dot_ne_bracket name name')
  · exact fun h => .inl ⟨name, rfl, h⟩

theorem isAccess_bracket_iff {name : String} :
    A.IsAccess ("styles[" ++ quoted name ++ "]") ↔ IsQuotable name := by
  rw [isAccess_iff]
  constructor
  · rintro (⟨name', hname, -⟩ | ⟨name', hname, h⟩)
    · exact absurd hname.symm (dot_ne_bracket name' name)
    · rw [quoted, quoted] at hname
      have hsame : name = name' := by simpa [String.append_assoc] using hname
      rwa [hsame]
  · exact fun h => .inr ⟨name, rfl, h⟩

theorem isAccess_styleLookup_iff {className : String} :
    A.IsAccess (styleLookup className) ↔
      if Text.needsBrackets className then IsQuotable className else A.IsIdentifier className := by
  rw [styleLookup]
  by_cases h : Text.needsBrackets className
  · rw [if_pos h, if_pos h]
    exact A.isAccess_bracket_iff
  · rw [if_neg h, if_neg h]
    exact A.isAccess_dot_iff

/-! ## Names that can be looked up -/

/-- Whether a name can be looked up as it is: with a sign that asks for brackets it has neither a quote nor a
backslash in it, and without one it is an identifier. -/
structure Accessible (name : String) : Prop where
  bracket : Text.needsBrackets name → '"' ∉ name.toList ∧ '\\' ∉ name.toList
  dot : Text.needsBrackets name = false → A.IsIdentifier name

theorem accessible_iff {name : String} :
    A.Accessible name ↔
      if Text.needsBrackets name then '"' ∉ name.toList ∧ '\\' ∉ name.toList else A.IsIdentifier name := by
  split
  case isTrue hbrackets => exact ⟨fun h => h.bracket hbrackets, fun h => ⟨fun _ => h, by simp [hbrackets]⟩⟩
  case isFalse hbrackets =>
    exact ⟨fun h => h.dot (by simpa using hbrackets), fun h => ⟨fun hb => absurd hb hbrackets, fun _ => h⟩⟩

theorem isAccess_sanitize_iff {name : String} :
    A.IsAccess (styleLookup (Text.sanitize name)) ↔ A.Accessible (Text.sanitize name) := by
  rw [isAccess_styleLookup_iff, accessible_iff, isQuotable_sanitize_iff]

theorem needsBrackets_append (hbehind : ∀ c ∈ behind.toList, A.isAlphanum c) :
    Text.needsBrackets (front ++ behind) = Text.needsBrackets front := by
  have hnone : behind.toList.any Text.forcesBrackets = false := by
    rw [List.any_eq_false]
    intro c hc
    have hne (d : Char) (hd : d.toNat < 128) (hsign : d.isAlphanum = false) : c ≠ d :=
      A.ne_of_isAlphanum (hbehind c hc) hd hsign
    simp [Text.forcesBrackets, hne '.' (by decide) rfl, hne '-' (by decide) rfl, hne '_' (by decide) rfl]
  rw [Text.needsBrackets, Text.needsBrackets, String.toList_append, List.any_append, hnone, Bool.or_false]

/-- Letters and digits behind a name make no difference. -/
theorem accessible_append_iff (hne : front ≠ "") (hbehind : ∀ c ∈ behind.toList, A.isAlphanum c) :
    A.Accessible (front ++ behind) ↔ A.Accessible front := by
  have hnot (d : Char) (hd : d.toNat < 128) (hsign : d.isAlphanum = false) : d ∉ behind.toList :=
    fun hmem => A.ne_of_isAlphanum (hbehind d hmem) hd hsign rfl
  rw [accessible_iff, accessible_iff, A.needsBrackets_append hbehind,
    A.isIdentifier_append_iff hne fun c hc => A.continues_of_isAlphanum (hbehind c hc)]
  simp only [String.toList_append, List.mem_append, hnot '"' (by decide) rfl, hnot '\\' (by decide) rfl, or_false]

/-- Digits alone cannot be looked up, nor can nothing at all. -/
theorem not_accessible_of_isDigit (h : ∀ c ∈ s.toList, c.isDigit) : ¬A.Accessible s := by
  have hbrackets : Text.needsBrackets ("" ++ s) = false :=
    A.needsBrackets_append fun c hc => A.isAlphanum_of_isDigit (h c hc)
  rw [String.empty_append] at hbrackets
  rw [accessible_iff, hbrackets, if_neg (by decide)]
  rintro ⟨c, cs, hs, hstart, -⟩
  have hdigit : c.isDigit := h c (by rw [hs]; exact List.mem_cons_self)
  rw [A.not_starts_of_isDigit hdigit] at hstart
  cases hstart

/-- Digits behind a name make no difference, even if there is no name. -/
theorem accessible_append_digits_iff (front : String) (h : ∀ c ∈ behind.toList, c.isDigit) :
    A.Accessible (front ++ behind) ↔ A.Accessible front := by
  by_cases hne : front = ""
  · -- An identifier can start with neither nothing nor a digit.
    rw [hne, String.empty_append]
    exact iff_of_false (A.not_accessible_of_isDigit h) (A.not_accessible_of_isDigit (by simp))
  · exact A.accessible_append_iff hne fun c hc => A.isAlphanum_of_isDigit (h c hc)

theorem isLetter_of_isLettered (h : isLettered s) : ∀ c ∈ s.toList, A.isLetter c := by
  intro c hc
  have hc := List.all_eq_true.mp h c hc
  rw [Bool.and_eq_true, decide_eq_true_eq] at hc
  rw [A.isLetter_eq c hc.1, hc.2]

theorem isAlphanum_of_isLettered (h : isLettered s) : ∀ c ∈ s.toList, A.isAlphanum c := by
  intro c hc
  rw [isAlphanum, A.isLetter_of_isLettered h c hc, Bool.true_or]

/-- Words of letters can be looked up. -/
theorem accessible_of_isLettered (hne : s ≠ "") (h : isLettered s) : A.Accessible s := by
  have hletter := A.isLetter_of_isLettered h
  have hbrackets : Text.needsBrackets ("" ++ s) = false := A.needsBrackets_append (A.isAlphanum_of_isLettered h)
  obtain ⟨c, cs, hs⟩ : ∃ c cs, s.toList = c :: cs := List.exists_cons_of_ne_nil (by simpa using hne)
  rw [hs, List.forall_mem_cons] at hletter
  rw [String.empty_append] at hbrackets
  rw [accessible_iff, hbrackets, if_neg (by decide), A.isIdentifier_iff hs]
  refine ⟨by simp [starts, hletter.1], fun d hd => ?_⟩
  simp [continues, starts, hletter.2 d hd]

end Alphabet

/-! ## Class names -/

open Tag (nameAt numbersAt)

/-- The sanitized display name in a class name: none in that of a text, the parent's in that of an image. -/
def givenName (root : SceneNode) (p : List Nat) (h : Tag.Head) : String :=
  if h.isText then ""
  else if h.isImage then
    Text.sanitize (if p = [] then "" else ((root.shownAt? p.dropLast).map SceneNode.name).getD "")
  else Text.sanitize h.source.name

/-- Only a text or an image can be without a name, and every other name is that of a layer which is shown. -/
theorem givenName_cases {root : SceneNode} {p : List Nat} {h : Tag.Head} (hp : root.shownAt? p = some h.source) :
    (h.isNumbered ∧ givenName root p h = "") ∨
      ∃ q n, root.shownAt? q = some n ∧ givenName root p h = Text.sanitize n.name := by
  have hempty : Text.sanitize "" = "" := by decide
  rw [givenName, Tag.Head.isNumbered]
  by_cases htext : h.isText
  · rw [if_pos htext, htext]
    exact .inl ⟨rfl, rfl⟩
  · rw [if_neg htext]
    by_cases himage : h.isImage
    · rw [if_pos himage, himage, Bool.or_true]
      by_cases htop : p = []
      · rw [if_pos htop]
        exact .inl ⟨rfl, hempty⟩
      · rw [if_neg htop]
        cases hparent : root.shownAt? p.dropLast with
        | none => exact .inl ⟨rfl, hempty⟩
        | some parent => exact .inr ⟨p.dropLast, parent, hparent, rfl⟩
    · rw [if_neg himage]
      exact .inr ⟨p, h.source, hp, rfl⟩

namespace Alphabet

variable (A : Alphabet) {root : SceneNode} {p : List Nat}

/-- Texts and images have a word in their class names, which can be looked up without a display name. -/
theorem accessible_nameAt_iff (h : Tag.Head) :
    A.Accessible (nameAt root p h) ↔
      (h.isNumbered ∧ givenName root p h = "") ∨ A.Accessible (givenName root p h) := by
  rw [nameAt, givenName, Tag.Head.isNumbered]
  by_cases htext : h.isText
  · rw [if_pos htext, if_pos htext, htext]
    exact iff_of_true (A.accessible_of_isLettered (by decide) (by decide)) (.inl ⟨rfl, rfl⟩)
  · rw [if_neg htext, if_neg htext, Bool.eq_false_iff.mpr htext, Bool.false_or]
    by_cases himage : h.isImage
    · rw [if_pos himage, if_pos himage, himage]
      generalize Text.sanitize _ = parentName
      by_cases hparent : parentName = ""
      · rw [hparent, String.empty_append]
        exact iff_of_true (A.accessible_of_isLettered (by decide) (by decide)) (.inl ⟨rfl, rfl⟩)
      · rw [A.accessible_append_iff hparent (A.isAlphanum_of_isLettered (by decide))]
        simp [hparent]
    · rw [if_neg himage, if_neg himage]
      simp [himage]

variable {unit : LengthUnit} {detection : Detection} {start stop : Counter} {t u : Tag} {className : String}

/-- A lookup is valid if the name that its class is made from can be looked up. -/
theorem isAccess_of_build_iff (h : Tag.build root unit detection start = (some t, stop)) (hp : t.at? p = some u)
    (hclass : styleClass? .elementBased u.head = some className) :
    A.IsAccess (styleLookup className) ↔
      (u.head.isNumbered ∧ givenName root p u.head = "") ∨ A.Accessible (givenName root p u.head) := by
  rw [styleClass?] at hclass
  split at hclass
  case isTrue hplain =>
    obtain rfl := Option.some.inj hclass
    have hsome : ¬u.head.style.isEmpty := by
      rw [Bool.and_eq_true] at hplain
      simpa using hplain.2
    -- The numbers at the end go first, and then the word that may stand in front of them.
    rw [A.isAccess_sanitize_iff, Tag.sanitize_className_of_build h hp hsome,
      A.accessible_append_digits_iff _ fun c => Tag.isDigit_of_mem_numbersAt, A.accessible_nameAt_iff]
  case isFalse => cases hclass

/-- Names that can all be looked up leave no class without a lookup. -/
theorem accessible_of_forall_name (hroot : root.visible)
    (hnames : ∀ n ∈ root.preorder, n.visible → A.Accessible (Text.sanitize n.name)) {h : Tag.Head}
    (hp : root.shownAt? p = some h.source) :
    (h.isNumbered ∧ givenName root p h = "") ∨ A.Accessible (givenName root p h) := by
  obtain hmissing | ⟨q, n, hn, hgiven⟩ := givenName_cases hp
  · exact .inl hmissing
  · obtain ⟨hmem, hvisible⟩ := SceneNode.of_shownAt? hroot hn
    rw [hgiven]
    exact .inr (hnames n hmem hvisible)

end Alphabet

/-- **When lookups are valid.** A visible root has a tree. What a line of its body looks up is the class of a tag and
stands in the text of the line. What a tag looks up is a valid property access if and only if the display name in its
class name is one that can be looked up, or is missing from that of a text or an image. So all lookups are valid if
all visible layers have such names. -/
theorem isAccess_build_iff (A : Alphabet) (unit : LengthUnit) (detection : Detection) (start : Counter)
    {root : SceneNode} (hroot : root.visible) :
    ∃ t stop, Tag.build root unit detection start = (some t, stop) ∧
      body .elementBased t = "\n".intercalate ((placedLines .elementBased 0 t).map fun l => l.line.text) ∧
      (∀ l ∈ placedLines .elementBased 0 t, ∀ className, l.line.form.styleClass? = some className →
        (∃ u, t.at? l.position = some u ∧ styleClass? .elementBased u.head = some className) ∧
          ∃ front rest,
            l.line.text = front ++ " className=\x7b" ++ styleLookup className ++ "\x7d" ++ rest) ∧
      (∀ p u className, t.at? p = some u → styleClass? .elementBased u.head = some className →
        (A.IsAccess (styleLookup className) ↔
          (u.head.isNumbered ∧ givenName root p u.head = "") ∨
            A.Accessible (givenName root p u.head))) ∧
      ((∀ n ∈ root.preorder, n.visible → A.Accessible (Text.sanitize n.name)) →
        ∀ p u className, t.at? p = some u → styleClass? .elementBased u.head = some className →
          A.IsAccess (styleLookup className)) := by
  obtain ⟨t, stop, hbuilt⟩ := Tag.exists_build unit detection start hroot
  refine ⟨t, stop, hbuilt, body_eq_intercalate _ t,
    fun l hl className hclass => ⟨exists_tag_of_styleClass? hl hclass, exists_text_of_styleClass? hl hclass⟩,
    fun p u className hp => A.isAccess_of_build_iff hbuilt hp, fun hnames p u className hp hclass => ?_⟩
  rw [A.isAccess_of_build_iff hbuilt hp hclass]
  exact A.accessible_of_forall_name hroot hnames (Tag.shownAt?_of_buildIn hbuilt hp)

/-- A page with one frame in it, which has the given name. -/
def pageWith (name : String) : SceneNode :=
  .container .frame { name := "Page" } {} [.container .frame { name, width := 10, height := 20 } {} []]

theorem exists_tag_pageWith (name className : String)
    (h : ((Tag.build (pageWith name) .px .identify {}).1.bind fun t =>
      (t.at? [0]).bind fun u => styleClass? .elementBased u.head) = some className) :
    ∃ t stop u, Tag.build (pageWith name) .px .identify {} = (some t, stop) ∧ t.at? [0] = some u ∧
      styleClass? .elementBased u.head = some className := by
  obtain ⟨t, stop, hbuilt⟩ := Tag.exists_build .px .identify {} (show (pageWith name).visible from rfl)
  rw [hbuilt, Option.bind_some] at h
  obtain ⟨u, hu, hclass⟩ := Option.bind_eq_some_iff.mp h
  exact ⟨t, stop, u, hbuilt, hu, hclass⟩

/-- The frame has a hyphen in its name and is looked up between brackets. -/
theorem isAccess_build_iff_hyphen :
    (pageWith "card-body").visible ∧
    ∃ t stop u, Tag.build (pageWith "card-body") .px .identify {} = (some t, stop) ∧ t.at? [0] = some u ∧
      styleClass? .elementBased u.head = some "card-body10" ∧
      Alphabet.ascii.IsAccess (styleLookup "card-body10") := by
  have hroot : (pageWith "card-body").visible := by decide
  obtain ⟨t, stop, hbuilt, -, -, hiff, -⟩ := isAccess_build_iff .ascii .px .identify {} hroot
  obtain ⟨t', stop', u, hbuilt', hu, hclass⟩ := exists_tag_pageWith "card-body" "card-body10" (by decide)
  cases hbuilt.symm.trans hbuilt'
  have hgiven : givenName (pageWith "card-body") [0] u.head = "card-body" := by
    have hall : ((Tag.build (pageWith "card-body") .px .identify {}).1.bind fun t => (t.at? [0]).map fun u =>
        givenName (pageWith "card-body") [0] u.head) = some "card-body" := by
      decide
    rw [hbuilt, Option.bind_some, hu, Option.map_some] at hall
    exact Option.some.inj hall
  have haccessible : Alphabet.ascii.Accessible "card-body" := by
    rw [Alphabet.accessible_iff, if_pos (by decide)]
    decide
  refine ⟨hroot, t, stop, u, hbuilt, hu, hclass, (hiff [0] u _ hu hclass).mpr (.inr ?_)⟩
  rwa [hgiven]

/-- Whatever the letters beyond ASCII are, a name that starts with a digit is looked up after a dot. -/
theorem not_forall_isAccess :
    ¬∃ A : Alphabet, ∀ (root : SceneNode) (unit : LengthUnit) (detection : Detection) (t : Tag) (stop : Counter)
      (p : List Nat) (u : Tag) (className : String), root.visible →
      Tag.build root unit detection {} = (some t, stop) → t.at? p = some u →
      styleClass? .elementBased u.head = some className → A.IsAccess (styleLookup className) := by
  rintro ⟨A, h⟩
  obtain ⟨t, stop, u, hbuilt, hu, hclass⟩ := exists_tag_pageWith "1st" "1st10" (by decide)
  have haccess := h (pageWith "1st") .px .identify t stop [0] u "1st10" (by decide) hbuilt hu hclass
  rw [A.isAccess_styleLookup_iff, if_neg (by decide)] at haccess
  obtain ⟨c, cs, hparts, hstart, -⟩ := haccess
  cases hparts
  rw [A.not_starts_of_isDigit (by decide)] at hstart
  cases hstart

end Handoff.Markup
