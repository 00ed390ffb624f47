/-
# Handoff.Proofs.Style.ClassName — what a style record is made of

Style inference is one equation: a class name, a list of declarations, and a counter that moves on for
texts and images and stays for everything else. The early exits of `inferStyle` make no difference to
that, because texts and images always have declarations. The second half is about the names themselves.
Names with a number end in it, whatever stands in front; so two of them differ as soon as their numbers
do, even after characters have been removed from the front.
-/

import Handoff.Style.Inference
import Handoff.Text.Identifier

namespace Handoff

/-! ## Records -/

namespace StyleRecord

theorem properties_ofProperties (className : String) (properties : List StyleProperty) :
    (ofProperties className properties).properties = properties := by
  cases properties <;> rfl

theorem className_ofProperties (className : String) {properties : List StyleProperty}
    (h : properties ≠ []) : (ofProperties className properties).className = className := by
  rw [ofProperties, if_neg (by simpa using h)]

end StyleRecord

/-! ## Numbering -/

/-- The counter behind so many numbers. -/
def Counter.skip (c : Counter) (count : Nat) : Counter :=
  ⟨c.next + UInt32.ofNat count⟩

theorem Counter.skip_zero (c : Counter) : c.skip 0 = c := by
  rw [skip, show UInt32.ofNat 0 = 0 from rfl, UInt32.add_zero]

theorem Counter.skip_skip (c : Counter) (j k : Nat) : (c.skip j).skip k = c.skip (j + k) := by
  simp only [skip, UInt32.ofNat_add, UInt32.add_assoc]

/-- As long as the numbers last, a counter moves on by as many as were taken. -/
theorem Counter.peek_skip {c : Counter} {count : Nat} (h : c.peek + count < UInt32.size) :
    (c.skip count).peek = c.peek + count := by
  have hcount : count < UInt32.size := Nat.lt_of_le_of_lt (Nat.le_add_left ..) h
  rw [peek, skip, UInt32.toNat_add, UInt32.toNat_ofNat_of_lt' hcount]
  exact Nat.mod_eq_of_lt h

namespace SceneNode

/-! ## One equation for style inference -/

/-- Whether the class name of a node has a number. -/
def isNumbered (n : SceneNode) : Bool :=
  n.isText || n.isImageLike

/-- The class name of a node that has declarations. -/
def className (n : SceneNode) (ctx : StyleContext) (number : Nat) : String :=
  if n.isImageLike then (ctx.parent.map name).getD "" ++ "img" ++ toString number
  else if n.isText then "text" ++ toString number
  else n.name ++ toString ctx.depth ++ toString ctx.siblingIndex

/-- The declarations of a node. -/
def declarations (n : SceneNode) (ctx : StyleContext) : List StyleProperty :=
  n.placeRules ctx ++ n.effectRules ++ if n.isImageLike then n.imageRules else n.kindRules ctx.unit

/-- Of two nodes that stand alike and agree in their layer and in what they are shown as, one declares more than
the other if its kind calls for more. -/
theorem declarations_eq_append {m n : SceneNode} {ctx ctx' : StyleContext} {more : List StyleProperty}
    (hlayer : m.layer = n.layer) (habsolute : m.isAbsolute ctx'.parent = n.isAbsolute ctx.parent)
    (hchild : m.hasAbsoluteChild = n.hasAbsoluteChild) (hvector : m.isVector = n.isVector)
    (himage : m.isImageLike = n.isImageLike) (hunit : ctx'.unit = ctx.unit)
    (hkind : n.kindRules ctx.unit = m.kindRules ctx.unit ++ more) :
    n.declarations ctx = m.declarations ctx' ++ if n.isImageLike then [] else more := by
  have hplace : m.placeRules ctx' = n.placeRules ctx := by
    simp only [placeRules, habsolute, hchild, hlayer, hunit]
  have heffect : m.effectRules = n.effectRules := by
    simp only [effectRules, opacityRules, rotationRules, hvector, hlayer]
  have hown : m.imageRules = n.imageRules := by
    simp only [imageRules, hlayer]
  rw [declarations, declarations, hplace, heffect, hown, himage, hunit]
  split
  next => rw [List.append_nil]
  next => rw [hkind, List.append_assoc, List.append_assoc, List.append_assoc]

/-- Nodes that agree in that, and in what their kind calls for, declare the same. -/
theorem declarations_congr {m n : SceneNode} {ctx ctx' : StyleContext} (hlayer : m.layer = n.layer)
    (habsolute : m.isAbsolute ctx'.parent = n.isAbsolute ctx.parent)
    (hchild : m.hasAbsoluteChild = n.hasAbsoluteChild) (hvector : m.isVector = n.isVector)
    (himage : m.isImageLike = n.isImageLike) (hunit : ctx'.unit = ctx.unit)
    (hkind : m.kindRules ctx.unit = n.kindRules ctx.unit) : m.declarations ctx' = n.declarations ctx := by
  have hmore : n.kindRules ctx.unit = m.kindRules ctx.unit ++ [] := by rw [hkind, List.append_nil]
  have happend := declarations_eq_append hlayer habsolute hchild hvector himage hunit hmore
  rw [ite_self, List.append_nil] at happend
  exact happend.symm

/-- A text is never shown as an image. -/
theorem not_isImageLike_of_isText {n : SceneNode} (h : n.isText) : n.isImageLike = false := by
  cases n with
  | text layer run => simp [isImageLike, isVector, hasVectorArt, children, isText]
  | _ => simp [isText] at h

/-- Texts and images always have something to declare. -/
theorem declarations_ne_nil {n : SceneNode} (h : n.isNumbered) (ctx : StyleContext) :
    n.declarations ctx ≠ [] := by
  by_cases himage : n.isImageLike
  · simp [declarations, himage, imageRules]
  · have htext : n.isText := by simpa [isNumbered, himage] using h
    cases n with
    | text layer run => simp [declarations, himage, kindRules, TextRun.rules]
    | _ => simp [isText] at htext

theorem inferStyle_eq (n : SceneNode) (ctx : StyleContext) (counter : Counter) :
    n.inferStyle ctx counter =
      (.ofProperties (n.className ctx counter.peek) (n.declarations ctx),
        if n.isNumbered then counter.skip 1 else counter) := by
  by_cases himage : n.isImageLike
  · have hnumbered : n.isNumbered := by simp [isNumbered, himage]
    rw [inferStyle, if_pos himage, className, if_pos himage, declarations, if_pos himage, if_pos hnumbered]
    rfl
  · rw [inferStyle, if_neg himage, className, if_neg himage]
    by_cases htext : n.isText
    · have hnumbered : n.isNumbered := by simp [isNumbered, htext]
      -- The exit for a node without declarations is never taken by a text.
      have hsome := declarations_ne_nil hnumbered ctx
      rw [declarations, if_neg himage] at hsome ⊢
      rw [if_neg (by simpa using hsome), if_pos htext, if_pos htext, if_pos hnumbered]
      rfl
    · have hnumbered : ¬n.isNumbered := by simp [isNumbered, himage, htext]
      rw [declarations, if_neg himage, if_neg htext, if_neg hnumbered]
      show (if _ then _ else _) = _
      split
      next hnone => rw [StyleRecord.ofProperties, if_pos hnone]
      next => rfl

end SceneNode

/-! ## Numbers at the end of a name -/

namespace Text

theorem sanitize_append (a b : String) : sanitize (a ++ b) = sanitize a ++ sanitize b := by
  simp [sanitize, String.ofList_append]

theorem isDigit_iff {c : Char} : c.isDigit ↔ 48 ≤ c.toNat ∧ c.toNat ≤ 57 := by
  simp [Char.isDigit, UInt32.le_iff_toNat_le]

theorem ne_of_isDigit {c d : Char} (h : c.isDigit) (hd : d.isDigit = false) : c ≠ d := by
  rintro rfl
  rw [h] at hd
  cases hd

/-- No digit is removed from a name. -/
theorem isSpecial_of_isDigit {c : Char} (h : c.isDigit) : isSpecial c = false := by
  have hrange := isDigit_iff.mp h
  have hblank : isBlank c = false := by
    simp only [isBlank, blankRanges, List.any_cons, List.any_nil, Bool.or_false]
    simp
    omega
  have hsign (d : Char) (hd : d.isDigit = false) : c ≠ d := ne_of_isDigit h hd
  simp [isSpecial, hblank, hsign '=' rfl, hsign '&' rfl, hsign '#' rfl, hsign '/' rfl]

/-- A number is left as it is. -/
theorem sanitize_toString (n : Nat) : sanitize (toString n) = toString n := by
  have hall : (toString n).toList.filter (fun c => !isSpecial c) = (toString n).toList := by
    rw [List.filter_eq_self]
    intro c hc
    rw [Nat.toString_eq_ofList_toDigits, String.toList_ofList] at hc
    simp [isSpecial_of_isDigit (Nat.isDigit_of_mem_toDigits (by decide) (by decide) hc)]
  rw [sanitize, hall, String.ofList_toList]

/-- The digits at the end of a text that has a number behind something else are those of the number. -/
theorem takeWhile_isDigit_reverse (front : List Char) {c : Char} (hc : c.isDigit = false) (n : Nat) :
    (front ++ [c] ++ Nat.toDigits 10 n).reverse.takeWhile Char.isDigit = (Nat.toDigits 10 n).reverse := by
  have hall : ∀ d ∈ (Nat.toDigits 10 n).reverse, d.isDigit = true := fun d hd =>
    Nat.isDigit_of_mem_toDigits (by decide) (by decide) (List.mem_reverse.mp hd)
  rw [List.reverse_append, List.takeWhile_append_of_pos hall, List.reverse_append, List.reverse_singleton,
    List.singleton_append, List.takeWhile_cons, hc]
  simp

/-- Two equal texts that end in numbers end in one number, if something else stands before each. -/
theorem number_eq_of_eq {front front' : List Char} {c c' : Char} {m n : Nat} (hc : c.isDigit = false)
    (hc' : c'.isDigit = false)
    (h : front ++ [c] ++ Nat.toDigits 10 m = front' ++ [c'] ++ Nat.toDigits 10 n) : m = n := by
  have hdigits := congrArg (fun cs => cs.reverse.takeWhile Char.isDigit) h
  simp only [takeWhile_isDigit_reverse _ hc, takeWhile_isDigit_reverse _ hc', List.reverse_inj] at hdigits
  rw [← Nat.ofDigitChars_ten_toDigits (n := m), hdigits, Nat.ofDigitChars_ten_toDigits]

end Text

/-- The class name of a text or an image keeps its number behind a letter when it is sanitized. -/
theorem SceneNode.sanitize_className {n : SceneNode} (h : n.isNumbered) (ctx : StyleContext)
    (number : Nat) : ∃ front c, c.isDigit = false ∧
      (Text.sanitize (n.className ctx number)).toList = front ++ [c] ++ Nat.toDigits 10 number := by
  by_cases himage : n.isImageLike
  · refine ⟨(Text.sanitize ((ctx.parent.map name).getD "")).toList ++ ['i', 'm'], 'g', rfl, ?_⟩
    rw [className, if_pos himage, Text.sanitize_append, Text.sanitize_append, Text.sanitize_toString,
      show Text.sanitize "img" = "img" by decide]
    simp
  · have htext : n.isText := by simpa [isNumbered, himage] using h
    refine ⟨['t', 'e', 'x'], 't', rfl, ?_⟩
    rw [className, if_neg himage, if_pos htext, Text.sanitize_append, Text.sanitize_toString,
      show Text.sanitize "text" = "text" by decide]
    simp

/-- Texts and images with different numbers have different names, whatever their parents are called. -/
theorem SceneNode.sanitize_className_ne {m n : SceneNode} (hm : m.isNumbered) (hn : n.isNumbered)
    {ctx ctx' : StyleContext} {i j : Nat} (hne : i ≠ j) :
    Text.sanitize (m.className ctx i) ≠ Text.sanitize (n.className ctx' j) := by
  intro heq
  obtain ⟨front, c, hc, hleft⟩ := sanitize_className hm ctx i
  obtain ⟨front', c', hc', hright⟩ := sanitize_className hn ctx' j
  rw [heq, hright] at hleft
  exact hne (Text.number_eq_of_eq hc hc' hleft.symm)

end Handoff
