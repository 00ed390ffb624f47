/-
# Handoff.Proofs.Tag.ClassNames — the class names of a built tree in closed form

Building threads one counter through a recursion that skips invisible nodes and what is below images. The
closed form needs neither: the number in a name is the start of the counter plus the texts and images
that pre-order visits earlier, and every other name is made of the layer's name and the position. Names
with numbers stay different when they are sanitized, because two positions are never visited together.
-/

import Handoff.Proofs.Tag.Located

namespace Handoff.Tag

/-! ## Names by position -/

/-- The class name of the tag at a position of the tree of a scene, if the tag declares anything. -/
def classNameAt (root : SceneNode) (p : List Nat) (number : Nat) (h : Head) : String :=
  if h.isText then "text" ++ toString number
  else if h.isImage then
    (if p = [] then "" else ((root.shownAt? p.dropLast).map SceneNode.name).getD "") ++
      "img" ++ toString number
  else h.source.name ++ toString p.length ++ toString (p.getLast?.getD 0)

/-- The number that the counter has reached at a position. -/
def numberAt (start : Counter) (t : Tag) (p : List Nat) : Nat :=
  start.peek + numberedIn (t.before p)

variable {root : SceneNode} {unit : LengthUnit} {detection : Detection} {start stop : Counter}
variable {t u v : Tag} {p q : List Nat}

/-- Style inference at a position arrives at the name in closed form. -/
theorem className_contextAt (unit : LengthUnit) (n : SceneNode) (isRoot : Bool) (style : StyleRecord)
    (number : Nat) :
    n.className (contextAt { unit } root p) number =
      classNameAt root p number { headOf n detection isRoot with style } := by
  have htext : n.characters?.isSome = n.isText := by cases n <;> rfl
  have hdepth : (contextAt { unit } root p).depth = p.length := by
    cases p with
    | nil => rfl
    | cons i p => exact Nat.zero_add _
  have hindex : (contextAt { unit } root p).siblingIndex = p.getLast?.getD 0 := by
    cases p <;> rfl
  have hparent : ((contextAt { unit } root p).parent.map SceneNode.name).getD "" =
      if p = [] then "" else ((root.shownAt? p.dropLast).map SceneNode.name).getD "" := by
    cases p <;> rfl
  rw [SceneNode.className, classNameAt, hparent, hdepth, hindex]
  simp only [headOf, htext]
  by_cases h : n.isText
  · rw [if_pos h, if_pos h, SceneNode.not_isImageLike_of_isText h]
    rfl
  · rw [if_neg h, if_neg h]

/-! ## Numbers in pre-order -/

theorem numberedIn_mono {ts us : List Tag} (h : ts <+: us) : numberedIn ts ≤ numberedIn us :=
  h.sublist.countP_le

/-- A number is not used up again later: a position behind a numbered tag has a greater one. -/
theorem numberAt_lt (hu : u.head.isNumbered) (h : t.before p ++ [u] <+: t.before q) :
    numberAt start t p < numberAt start t q := by
  -- The numbered tag itself stands between the two.
  have hle := numberedIn_mono h
  rw [numberedIn_append, numberedIn_cons, if_pos hu] at hle
  simp only [numberAt]
  omega

/-- Numbered tags at different positions have different numbers. -/
theorem numberAt_ne (hne : p ≠ q) (hp : t.at? p = some u) (hq : t.at? q = some v)
    (hu : u.head.isNumbered) (hv : v.head.isNumbered) : numberAt start t p ≠ numberAt start t q := by
  rcases before_prefix_or hne hp hq with h | h
  · exact Nat.ne_of_lt (numberAt_lt hu h)
  · exact Nat.ne_of_gt (numberAt_lt hv h)

/-- No position has a number beyond the last one of the tree. -/
theorem numberAt_le (hp : t.at? p = some u) :
    numberAt start t p ≤ start.peek + numberedIn t.preorder := by
  obtain ⟨later, hlater⟩ := preorder_eq_before_append hp
  rw [hlater, numberedIn_append, numberAt]
  omega

/-! ## The closed form -/

/-- What is known of the tag at a position, as long as the numbers last. -/
theorem of_build_at (h : build root unit detection start = (some t, stop))
    (hroom : start.peek + numberedIn t.preorder < UInt32.size) (hp : t.at? p = some u) :
    ∃ n isRoot, root.shownAt? p = some n ∧
      u.head = { headOf n detection isRoot with style := u.head.style } ∧
      u.head.isNumbered = n.isNumbered ∧
      u.head.style = .ofProperties (n.className (contextAt { unit } root p) (numberAt start t p))
        (n.declarations (contextAt { unit } root p)) := by
  obtain ⟨n, c, hn, hbuilt⟩ := of_buildIn_at h hp
  obtain ⟨-, hhead, -⟩ := of_buildIn hbuilt
  have hpeek : (start.skip (numberedIn (t.before p))).peek = numberAt start t p :=
    Counter.peek_skip (Nat.lt_of_le_of_lt (numberAt_le hp) hroom)
  refine ⟨n, _, hn, by rw [hhead]; rfl, by rw [hhead, builtHead_isNumbered], ?_⟩
  rw [hhead]
  show (n.inferStyle _ _).1 = _
  rw [SceneNode.inferStyle_eq, hpeek]

/-- The class name of a text or an image, before it is put into closed form. -/
theorem className_of_build_at (h : build root unit detection start = (some t, stop))
    (hroom : start.peek + numberedIn t.preorder < UInt32.size) (hp : t.at? p = some u)
    (hu : u.head.isNumbered) : ∃ n : SceneNode, n.isNumbered ∧
      u.head.style.className = n.className (contextAt { unit } root p) (numberAt start t p) := by
  obtain ⟨n, isRoot, -, -, hnumbered, hstyle⟩ := of_build_at h hroom hp
  rw [hnumbered] at hu
  refine ⟨n, hu, ?_⟩
  rw [hstyle, StyleRecord.className_ofProperties _ (SceneNode.declarations_ne_nil hu _)]

/-- **Class names have a closed form.** A visible root has a tree. If the numbers last for it, the counter
ends behind the last one; the tag at a position stands for the node that the scene shows there, and its
style record has the name in closed form, or is the empty record if there are no declarations; texts and
images always have some; and no two of them have the same name after sanitizing. -/
theorem build_className (unit : LengthUnit) (detection : Detection) (start : Counter)
    (hroot : root.visible) :
    ∃ t stop, build root unit detection start = (some t, stop) ∧
      (start.peek + numberedIn t.preorder < UInt32.size →
        stop.peek = start.peek + numberedIn t.preorder ∧
        (∀ p u, t.at? p = some u →
          root.shownAt? p = some u.head.source ∧
          u.head.style = .ofProperties
            (classNameAt root p (start.peek + numberedIn (t.before p)) u.head) u.head.style.properties ∧
          (u.head.isNumbered → ¬u.head.style.isEmpty)) ∧
        ∀ p q u v, p ≠ q → t.at? p = some u → t.at? q = some v →
          u.head.isNumbered → v.head.isNumbered →
          Text.sanitize u.head.style.className ≠ Text.sanitize v.head.style.className) := by
  obtain ⟨t, stop, hbuilt⟩ : ∃ t stop, build root unit detection start = (some t, stop) :=
    ⟨_, _, buildIn_of_visible hroot⟩
  refine ⟨t, stop, hbuilt, fun hroom => ⟨?_, fun p u hp => ?_, fun p q u v hne hp hq hu hv => ?_⟩⟩
  · rw [counter_of_buildIn hbuilt, Counter.peek_skip hroom]
  · obtain ⟨n, isRoot, hn, hhead, hnumbered, hstyle⟩ := of_build_at hbuilt hroom hp
    have hproperties : u.head.style.properties = n.declarations (contextAt { unit } root p) := by
      rw [hstyle, StyleRecord.properties_ofProperties]
    refine ⟨by rw [hn, hhead]; rfl, ?_, fun h => ?_⟩
    · rw [hproperties]
      show _ = StyleRecord.ofProperties (classNameAt root p (numberAt start t p) u.head) _
      rw [hhead, ← className_contextAt unit, hstyle]
    · rw [hnumbered] at h
      simpa [StyleRecord.isEmpty, hproperties] using SceneNode.declarations_ne_nil h _
  · -- Both names end in their numbers, and those differ.
    obtain ⟨m, hm, hleft⟩ := className_of_build_at hbuilt hroom hp hu
    obtain ⟨n, hn, hright⟩ := className_of_build_at hbuilt hroom hq hv
    rw [hleft, hright]
    exact SceneNode.sanitize_className_ne hm hn (numberAt_ne hne hp hq hu hv)

/-- A frame around an invisible text, a text, and a row of an icon, a label and a node of an unknown
kind. -/
def card : SceneNode :=
  .container .frame { name := "Card 1" } {}
    [.text { name := "Draft", visible := false } { characters := "draft" },
      .text { name := "Title" } { characters := "Hello" },
      .group { name := "Row" }
        [.shape .vector { name := "Icon" } {}, .text { name := "Label" } { characters := "Hi" },
          .other "CONNECTOR" { name := "Edge" } []]]

/-- The invisible text has no place and no number, and the unknown node has nothing to declare. -/
theorem build_className_card :
    ∃ t stop, build card .px .identify ⟨7⟩ = (some t, stop) ∧ stop.peek = 10 ∧
      (t.preorder.map fun u => u.head.style.className) =
        ["Card 100", "text7", "Row11", "Rowimg8", "text9", ""] ∧
      ∀ p q u v, p ≠ q → t.at? p = some u → t.at? q = some v →
        u.head.isNumbered → v.head.isNumbered →
        Text.sanitize u.head.style.className ≠ Text.sanitize v.head.style.className := by
  obtain ⟨t, stop, hbuilt, h⟩ := build_className .px .identify ⟨7⟩ (show card.visible by decide)
  have hcount : (build card .px .identify ⟨7⟩).1.map (fun t => numberedIn t.preorder) = some 3 := by
    decide
  have hnames : (build card .px .identify ⟨7⟩).1.map
      (fun t => t.preorder.map fun u => u.head.style.className) =
        some ["Card 100", "text7", "Row11", "Rowimg8", "text9", ""] := by
    decide
  rw [hbuilt] at hcount hnames
  simp only [Option.map_some, Option.some.injEq] at hcount hnames
  rw [hcount] at h
  obtain ⟨hstop, -, hdistinct⟩ := h (by decide)
  exact ⟨t, stop, hbuilt, hstop, hnames, hdistinct⟩

end Handoff.Tag
