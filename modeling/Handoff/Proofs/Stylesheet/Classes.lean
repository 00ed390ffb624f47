/-
# Handoff.Proofs.Stylesheet.Classes — classes without blanks

Most utility classes have the blanks of their value replaced. Those of some properties take the value as it is,
and a radius does so after a look for spaces only. Where such values have no blanks, every class of a declaration
is a token, and only a padding comes to more than one.
-/

import Handoff.Proofs.Stylesheet.Translation
import Handoff.Proofs.Text.Words

namespace Handoff.Stylesheet

open Text (IsToken IsUnbroken IsWord)

/-! ## Classes -/

/-- Whether the value stands in the brackets as it is. -/
def ClassForm.isVerbatim : ClassForm → Bool
  | .spacing _ => false
  | .verbatim _ => true
  | .joined _ => false

def ClassForm.stem : ClassForm → String
  | .spacing stem => stem
  | .verbatim stem => stem
  | .joined stem => stem

/-- The properties whose values enter their class as they are. -/
def verbatimProperties : List String :=
  (classForms.filter fun form => form.2.isVerbatim).map (·.1)

theorem isUnbroken_joinedWords (value : String) : IsUnbroken (joinedWords value) :=
  Text.forall_mem_intercalate (show IsUnbroken "_" by decide) fun _ hword =>
    Text.isUnbroken_of_mem_wordsOf hword

theorem isUnbroken_bracketed {stem value : String} (hstem : IsUnbroken stem) (hvalue : IsUnbroken value) :
    IsUnbroken (bracketed stem value) :=
  ((hstem.append (by decide)).append hvalue).append (by decide)

theorem isUnbroken_literalClass {property : String} (hproperty : IsUnbroken property) (value : String) :
    IsUnbroken (literalClass property value) := by
  have hfront : IsUnbroken "[" := by decide
  exact (((hfront.append hproperty).append (by decide)).append (isUnbroken_joinedWords value)).append
    (by decide)

theorem isUnbroken_spacingClass {stem : String} (hstem : IsUnbroken stem) (value : String) :
    IsUnbroken (spacingClass stem value) := by
  have hscale : ∀ name ∈ spacingScale.map (·.2), IsWord name := by decide
  rw [spacingClass]
  split
  next name hname =>
    obtain ⟨pixels, -, hstep⟩ := Option.bind_eq_some_iff.mp hname
    obtain ⟨step, hfound, rfl⟩ := Option.map_eq_some_iff.mp hstep
    have hword := hscale step.2 (List.mem_map_of_mem (List.mem_of_find?_eq_some hfound))
    exact (hstem.append (by decide)).append hword.isToken.unbroken
  next => exact isUnbroken_bracketed hstem (isUnbroken_joinedWords value)

theorem isUnbroken_of_mem_paddingClasses {value c : String} (h : c ∈ paddingClasses value) : IsUnbroken c := by
  have hstems : ∀ stem ∈ ["p", "py", "px", "pt", "pr", "pb", "pl"], IsUnbroken stem := by decide
  rw [paddingClasses] at h
  split at h
  all_goals simp only [List.mem_cons, List.not_mem_nil, or_false] at h
  · rw [h]
    exact isUnbroken_spacingClass (hstems _ (by simp)) _
  · rcases h with rfl | rfl <;> exact isUnbroken_spacingClass (hstems _ (by simp)) _
  · rcases h with rfl | rfl | rfl | rfl <;> exact isUnbroken_spacingClass (hstems _ (by simp)) _
  · rw [h]
    exact isUnbroken_literalClass (by decide) value

/-! ## The classes of a declaration -/

variable {d : Declaration}

/-- What a declaration comes to: the classes of a padding, or one class of five kinds. -/
theorem utilityClasses_cases (d : Declaration) :
    d.property = "padding" ∧ utilityClasses d = paddingClasses d.value ∨
    d.property ≠ "padding" ∧ ∃ c, utilityClasses d = [c] ∧
      (c ∈ keywordClasses.map (·.2) ∨
        (d.property = "border-radius" ∧ ' ' ∉ d.value.toList ∧ c = bracketed "rounded" d.value) ∨
        c = bracketed "font" ("'" ++ joinedWords d.value ++ "'") ∨
        (∃ form, (d.property, form) ∈ classForms ∧ c = form.render d.value) ∨
        c = literalClass d.property d.value) := by
  have hkeywords : ∀ k ∈ keywordClasses, k.1.property ≠ "padding" := by decide
  rw [utilityClasses]
  split
  next keyword hkeyword =>
    obtain ⟨before, after, hsplit, -⟩ := List.lookup_eq_some_iff.mp hkeyword
    have hmem : (d, keyword) ∈ keywordClasses := by simp [hsplit]
    exact .inr ⟨hkeywords _ hmem, keyword, rfl, .inl (List.mem_map_of_mem hmem)⟩
  next =>
    rw [propertyClasses]
    by_cases hpadding : d.property = "padding"
    · exact .inl ⟨hpadding, if_pos hpadding⟩
    · rw [if_neg hpadding]
      refine .inr ⟨hpadding, ?_⟩
      split
      next hradius => exact ⟨_, rfl, .inr (.inl ⟨hradius.1, hradius.2, rfl⟩)⟩
      next =>
        split
        · exact ⟨_, rfl, .inr (.inr (.inl rfl))⟩
        · split
          next form hform =>
            obtain ⟨before, after, hsplit, -⟩ := List.lookup_eq_some_iff.mp hform
            exact ⟨_, rfl, .inr (.inr (.inr (.inl ⟨form, by simp [hsplit], rfl⟩)))⟩
          next => exact ⟨_, rfl, .inr (.inr (.inr (.inr rfl)))⟩

/-- All but a padding come to exactly one class. -/
theorem length_utilityClasses_of_ne (h : d.property ≠ "padding") : (utilityClasses d).length = 1 := by
  rcases utilityClasses_cases d with ⟨hpadding, -⟩ | ⟨-, c, hclasses, -⟩
  · exact absurd hpadding h
  · rw [hclasses, List.length_singleton]

theorem utilityClasses_of_padding (h : d.property = "padding") : utilityClasses d = paddingClasses d.value := by
  rcases utilityClasses_cases d with ⟨-, hclasses⟩ | ⟨hother, -⟩
  · exact hclasses
  · exact absurd h hother

/-- A declaration whose values have no blanks where a class would take them over. -/
structure Declaration.IsCompact (d : Declaration) : Prop where
  property : IsUnbroken d.property
  verbatim : d.property ∈ verbatimProperties → IsUnbroken d.value
  /-- Only the space is looked for before a radius is taken as it is. -/
  radius : d.property = "border-radius" → ' ' ∉ d.value.toList → IsUnbroken d.value

theorem isUnbroken_render {property value : String} {form : ClassForm}
    (hform : (property, form) ∈ classForms) (hvalue : property ∈ verbatimProperties → IsUnbroken value) :
    IsUnbroken (form.render value) := by
  have hstems : ∀ f ∈ classForms, IsUnbroken f.2.stem := by decide
  have hstem := hstems _ hform
  cases form with
  | spacing stem => exact isUnbroken_spacingClass hstem value
  | verbatim stem =>
    refine isUnbroken_bracketed hstem (hvalue ?_)
    exact List.mem_map_of_mem (List.mem_filter.mpr ⟨hform, rfl⟩)
  | joined stem => exact isUnbroken_bracketed hstem (isUnbroken_joinedWords value)

/-- The classes of a compact declaration have no blanks. -/
theorem isToken_of_mem_utilityClasses (h : d.IsCompact) {c : String} (hc : c ∈ utilityClasses d) :
    IsToken c := by
  refine ⟨(utilityClasses_ne d).2 c hc, ?_⟩
  have hkeywords : ∀ keyword ∈ keywordClasses.map (·.2), IsWord keyword := by decide
  have hquote : IsUnbroken "'" := by decide
  rcases utilityClasses_cases d with ⟨-, hclasses⟩ | ⟨-, c', hclasses, hkind⟩
  · rw [hclasses] at hc
    exact isUnbroken_of_mem_paddingClasses hc
  · obtain rfl : c = c' := by simpa [hclasses] using hc
    rcases hkind with hkeyword | ⟨hradius, hspace, rfl⟩ | rfl | ⟨form, hform, rfl⟩ | rfl
    · exact (hkeywords c hkeyword).isToken.unbroken
    · exact isUnbroken_bracketed (by decide) (h.radius hradius hspace)
    · exact isUnbroken_bracketed (by decide) ((hquote.append (isUnbroken_joinedWords d.value)).append hquote)
    · exact isUnbroken_render hform h.verbatim
    · exact isUnbroken_literalClass h.property d.value

/-! ## Paddings -/

/-- A padding of one, two or four parts comes to as many classes. -/
theorem length_paddingClasses {value : String} (h : (Text.wordsOf value).length ∈ [1, 2, 4]) :
    (paddingClasses value).length = (Text.wordsOf value).length := by
  rcases hwords : Text.wordsOf value with _ | ⟨all, _ | ⟨x, _ | ⟨b, _ | ⟨l, _ | ⟨more, parts⟩⟩⟩⟩⟩
  case cons.nil | cons.cons.nil | cons.cons.cons.cons.nil =>
    rw [paddingClasses, hwords]
    rfl
  all_goals simp [hwords] at h

/-- Reading a declaration back leaves its words. -/
theorem wordsOf_readDeclaration (p : StyleProperty) :
    Text.wordsOf (readDeclaration p).value = Text.wordsOf p.value := by
  rw [readDeclaration, Text.wordsOf, String.toList_ofList, Text.words_trim, Text.wordsOf]

end Handoff.Stylesheet
