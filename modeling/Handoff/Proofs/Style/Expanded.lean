/-
# Handoff.Proofs.Style.Expanded — what shorthands stand for

A stylesheet reads one, two or four lengths as those of four sides. Collapsing is right if the lengths that are left
are read as those of the four numbers it started from, and if it leaves no more than it has to. It compares the
numbers, not the lengths, and these are compared as doubles are: NaN is not equal to itself, and the two zeros are
equal. Numbers that are equal are the same one but for the sign of a zero, and the only place where zeros of both
signs can be written by one token is that of opposite paddings. So nothing is asked of how numbers are written but
that equal paddings are written alike.
-/

import Handoff.Proofs.Style.Equality
import Handoff.Proofs.Style.Numeral
import Handoff.Proofs.Text.Words

namespace Handoff

/-! ## Tokens -/

/-- The parts of a value between its spaces. -/
def tokensOf (value : String) : List String :=
  (value.toList.splitOn ' ').map String.ofList

/-- The four lengths that one, two or four tokens stand for: all sides alike; top and bottom, right and left; top,
right, bottom, left. The corners follow the same rule from the top left one on. -/
def expand : List α → Option (List α)
  | [all] => some [all, all, all, all]
  | [y, x] => some [y, x, y, x]
  | [top, right, bottom, left] => some [top, right, bottom, left]
  | _ => none

theorem tokensOf_formatSizes (unit : LengthUnit) {pixels : List Float} (hne : pixels ≠ []) :
    tokensOf (unit.formatSizes pixels) = pixels.map unit.formatSize := by
  have htoken : ∀ part ∈ pixels.map unit.formatSize, Text.IsToken part :=
    List.forall_mem_map.mpr fun x _ => (isWord_formatSize unit x).isToken
  rw [tokensOf, LengthUnit.formatSizes, Text.splitOn_intercalate_of_isToken (by simpa using hne) htoken,
    List.map_map]
  simp [Function.comp_def]

example : expand (tokensOf "4px 8px") = some ["4px", "8px", "4px", "8px"] := by
  decide

/-- What collapsing four numbers has to give: nothing if and only if nothing need be said, and otherwise so many
tokens, which stand for the lengths of the four numbers. -/
structure Collapses (unit : LengthUnit) (pixels : List Float) (needless : Prop) (count : Nat)
    (result : Option String) : Prop where
  eq_none_iff : result = none ↔ needless
  length : ∀ value, result = some value → (tokensOf value).length = count
  expand : ∀ value, result = some value → expand (tokensOf value) = some (pixels.map unit.formatSize)

section Collapses

variable {unit : LengthUnit} {pixels : List Float} {needless : Prop} {count : Nat}

theorem Collapses.of_needless (h : needless) : Collapses unit pixels needless count none where
  eq_none_iff := by simp [h]
  length := by simp
  expand := by simp

theorem Collapses.of_written {written : List Float} (h : ¬needless) (hlength : written.length = count)
    (hexpand : Handoff.expand (written.map unit.formatSize) = some (pixels.map unit.formatSize)) :
    Collapses unit pixels needless count (some (unit.formatSizes written)) := by
  have hne : written ≠ [] := by
    rintro rfl
    cases hexpand
  have htokens := tokensOf_formatSizes unit hne
  constructor
  case eq_none_iff => simp [h]
  case length =>
    rintro value ⟨⟩
    rw [htokens, List.length_map, hlength]
  case expand =>
    rintro value ⟨⟩
    rw [htokens, hexpand]

end Collapses

/-! ## Paddings -/

/-- Whether those of the numbers that are equal are written alike. -/
def WrittenAlike (unit : LengthUnit) (pixels : List Float) : Prop :=
  ∀ x ∈ pixels, ∀ y ∈ pixels, x == y → unit.formatSize x = unit.formatSize y

/-- One length alone. -/
theorem formatSizes_singleton (unit : LengthUnit) (pixels : Float) :
    unit.formatSizes [pixels] = unit.formatSize pixels :=
  String.intercalate_singleton

namespace Sides

/-- The numbers of the sides, in the order in which a stylesheet reads them. -/
def toList (s : Sides) : List Float :=
  [s.top, s.right, s.bottom, s.left]

/-- How many tokens a padding takes. -/
def tokenCount (s : Sides) : Nat :=
  if AllEqual s.toList then 1 else if s.top == s.bottom ∧ s.left == s.right then 2 else 4

theorem allEqual_iff {s : Sides} :
    AllEqual s.toList ↔ (s.top == s.right && s.top == s.bottom && s.top == s.left) = true := by
  have htop : s.top ∈ s.toList := List.mem_cons_self
  simp only [Bool.and_eq_true]
  constructor
  · intro h
    have hfrom (x : Float) (hx : x ∈ s.toList) : s.top == x := h s.top htop x hx
    exact ⟨⟨hfrom _ (by simp [toList]), hfrom _ (by simp [toList])⟩, hfrom _ (by simp [toList])⟩
  · rintro ⟨⟨hright, hbottom⟩, hleft⟩
    rw [Handoff.allEqual_iff htop]
    simp only [toList, List.forall_mem_cons]
    exact ⟨BEq.trans hright (BEq.symm hright), BEq.symm hright, BEq.symm hbottom, BEq.symm hleft, by simp⟩

/-- A padding is written unless its sides are equal and not positive, with no more tokens than it needs. -/
theorem collapses_padding? {s : Sides} {unit : LengthUnit} (halike : WrittenAlike unit s.toList) :
    Collapses unit s.toList (AllEqual s.toList ∧ ¬0 < s.top) s.tokenCount (s.padding? unit) := by
  have halike {x y : Float} (hx : x ∈ s.toList) (hy : y ∈ s.toList) (h : x == y) :
      unit.formatSize x = unit.formatSize y := halike x hx y hy h
  rw [padding?]
  split
  case isTrue hequal =>
    have hall : AllEqual s.toList := allEqual_iff.mpr hequal
    split
    case isTrue hpositive =>
      rw [← formatSizes_singleton]
      refine .of_written (by simp [hpositive]) (by rw [tokenCount, if_pos hall]; rfl) ?_
      have htop (x : Float) (hx : x ∈ s.toList) : unit.formatSize s.top = unit.formatSize x :=
        halike List.mem_cons_self hx (hall _ List.mem_cons_self x hx)
      show some [_, _, _, _] = some [_, _, _, _]
      rw [← htop s.right (by simp [toList]), ← htop s.bottom (by simp [toList]), ← htop s.left (by simp [toList])]
    case isFalse hpositive => exact .of_needless ⟨hall, hpositive⟩
  case isFalse hdiffer =>
    have hall : ¬AllEqual s.toList := fun h => hdiffer (allEqual_iff.mp h)
    have hneedless : ¬(AllEqual s.toList ∧ ¬0 < s.top) := fun h => hall h.1
    split
    case isTrue hpairs =>
      rw [Bool.and_eq_true] at hpairs
      refine .of_written hneedless (by rw [tokenCount, if_neg hall, if_pos hpairs]; rfl) ?_
      -- The two sides of a pair may be zeros of both signs, of which only one is written.
      show some [_, _, _, _] = some [_, _, _, _]
      rw [halike (x := s.top) (by simp [toList]) (by simp [toList]) hpairs.1,
        halike (x := s.left) (by simp [toList]) (by simp [toList]) hpairs.2]
    case isFalse hpairs =>
      rw [Bool.and_eq_true] at hpairs
      exact .of_written hneedless (by rw [tokenCount, if_neg hall, if_neg hpairs]; rfl) rfl

end Sides

/-! ## Corners -/

theorem collapses_uniformRadius? (unit : LengthUnit) (radius : Float) :
    Collapses unit [radius, radius, radius, radius] (radius == 0) 1 (uniformRadius? unit radius) := by
  rw [uniformRadius?]
  split
  case isTrue hzero => exact .of_needless hzero
  case isFalse hzero =>
    rw [← formatSizes_singleton]
    exact .of_written hzero rfl rfl

namespace CornerRadius

/-- The radius of each corner. -/
def corners : CornerRadius → Corners
  | uniform radius => ⟨radius, radius, radius, radius⟩
  | perCorner corners => corners

/-- Whether no corner is round: the one radius is zero, or the four are equal and zero. -/
def IsSquare : CornerRadius → Prop
  | uniform radius => radius == 0
  | perCorner corners => AllEqual corners.toList ∧ corners.topLeft == 0

/-- How many tokens a radius takes. -/
def tokenCount : CornerRadius → Nat
  | uniform _ => 1
  | perCorner corners => if AllEqual corners.toList then 1 else 4

variable {unit : LengthUnit}

theorem all_beq_topLeft_iff {c : Corners} : c.toList.all (· == c.topLeft) = true ↔ AllEqual c.toList := by
  have htopLeft : c.topLeft ∈ c.toList := List.mem_cons_self
  rw [Handoff.allEqual_iff htopLeft, List.all_eq_true]

/-- Four equal corners are written as one radius of that number. -/
theorem css?_perCorner_of_allEqual {c : Corners} (h : AllEqual c.toList) :
    css? unit (perCorner c) = css? unit (uniform c.topLeft) := by
  rw [css?, css?]
  exact if_pos (all_beq_topLeft_iff.mpr h)

/-- Equal numbers are the same radius, since square corners are not written. -/
theorem css?_uniform_congr {radius radius' : Float} (h : radius == radius') :
    css? unit (uniform radius) = css? unit (uniform radius') := by
  rw [css?, css?, uniformRadius?, uniformRadius?]
  cases hzero : radius == 0 with
  | true =>
    have hzero' : radius' == 0 := BEq.trans (BEq.symm h) hzero
    rw [if_pos rfl, if_pos hzero']
  | false =>
    obtain rfl := eq_of_beq_of_ne_zero h hzero
    rw [hzero]

/-- Four corners equal to a number are written as that radius. -/
theorem css?_perCorner_of_beq {c : Corners} {radius : Float} (h : ∀ x ∈ c.toList, x == radius) :
    css? unit (perCorner c) = css? unit (uniform radius) := by
  have hall : AllEqual c.toList := fun x hx y hy => BEq.trans (h x hx) (BEq.symm (h y hy))
  rw [css?_perCorner_of_allEqual hall, css?_uniform_congr (h c.topLeft List.mem_cons_self)]

/-- Corners that are equal but not zero are the same number. -/
theorem toList_of_allEqual {c : Corners} (h : AllEqual c.toList) (hzero : (c.topLeft == 0) = false) :
    c.toList = [c.topLeft, c.topLeft, c.topLeft, c.topLeft] := by
  have hsame (x : Float) (hx : x ∈ c.toList) : x = c.topLeft :=
    (eq_of_beq_of_ne_zero (h c.topLeft List.mem_cons_self x hx) hzero).symm
  rw [Corners.toList, hsame c.topRight (by simp [Corners.toList]), hsame c.bottomRight (by simp [Corners.toList]),
    hsame c.bottomLeft (by simp [Corners.toList])]

/-- A radius is written unless it is square, with one token or with four. -/
theorem collapses_css? (unit : LengthUnit) (radius : CornerRadius) :
    Collapses unit radius.corners.toList radius.IsSquare radius.tokenCount (radius.css? unit) := by
  cases radius with
  | uniform radius => exact collapses_uniformRadius? unit radius
  | perCorner c =>
    by_cases hall : AllEqual c.toList
    case pos =>
      rw [css?_perCorner_of_allEqual hall, tokenCount, if_pos hall]
      cases hzero : c.topLeft == 0 with
      | true =>
        rw [css?, uniformRadius?, if_pos hzero]
        exact .of_needless ⟨hall, hzero⟩
      | false =>
        have hsquare : ¬IsSquare (perCorner c) := fun h => Bool.eq_false_iff.mp hzero h.2
        have hlist : (perCorner c).corners.toList = [c.topLeft, c.topLeft, c.topLeft, c.topLeft] :=
          toList_of_allEqual hall hzero
        rw [css?, uniformRadius?, hzero, if_neg (by decide), hlist, ← formatSizes_singleton]
        exact .of_written hsquare rfl rfl
    case neg =>
      have hsquare : ¬IsSquare (perCorner c) := fun h => hall h.1
      rw [css?, if_neg (mt all_beq_topLeft_iff.mp hall)]
      exact .of_written hsquare (by rw [tokenCount, if_neg hall]; rfl) rfl

end CornerRadius

namespace SceneNode

variable {n : SceneNode} {unit : LengthUnit} {radius : CornerRadius}

theorem borderRadius?_of_cornerRadius? (h : n.cornerRadius? = some radius) :
    n.borderRadius? unit = radius.css? unit := by
  rw [borderRadius?, h, Option.bind_some]

theorem borderRadius?_eq_none_iff :
    n.borderRadius? unit = none ↔ ∀ radius, n.cornerRadius? = some radius → radius.IsSquare := by
  cases h : n.cornerRadius? with
  | none => simp [borderRadius?, h]
  | some radius =>
    rw [borderRadius?_of_cornerRadius? h, (radius.collapses_css? unit).eq_none_iff]
    simp

end SceneNode

/-! ## Shorthands -/

/-- A padding is written as one, two or four lengths, as few as its sides allow, or not at all if they are equal and
not positive, and these stand for its four sides. Likewise the radius of a node is written as one length or four,
and not at all if its corners are square or it has none; one number and four corners equal to it come to the same. -/
theorem shorthands_expand (unit : LengthUnit) :
    (∀ s : Sides, WrittenAlike unit s.toList →
      Collapses unit s.toList (AllEqual s.toList ∧ ¬0 < s.top) s.tokenCount (s.padding? unit)) ∧
    (∀ n : SceneNode,
      n.borderRadius? unit = none ↔ ∀ radius, n.cornerRadius? = some radius → radius.IsSquare) ∧
    (∀ (n : SceneNode) (radius : CornerRadius), n.cornerRadius? = some radius →
      Collapses unit radius.corners.toList radius.IsSquare radius.tokenCount (n.borderRadius? unit)) ∧
    ∀ (n n' : SceneNode) (radius : Float) (c : Corners), ¬radius.isNaN →
      (c.toList = [radius, radius, radius, radius] ∨ ∀ x ∈ c.toList, x == radius) →
      n.cornerRadius? = some (.uniform radius) → n'.cornerRadius? = some (.perCorner c) →
      n'.borderRadius? unit = n.borderRadius? unit := by
  refine ⟨fun s => Sides.collapses_padding?, fun n => SceneNode.borderRadius?_eq_none_iff, ?radius, ?alike⟩
  case radius =>
    intro n radius h
    rw [SceneNode.borderRadius?_of_cornerRadius? h]
    exact radius.collapses_css? unit
  case alike =>
    intro n n' radius c hnan hequal hn hn'
    have hcorners : ∀ x ∈ c.toList, x == radius := by
      obtain hsame | hequal := hequal
      · have hself : radius == radius := beq_self_of_not_isNaN hnan
        simp [hsame, hself]
      · exact hequal
    rw [SceneNode.borderRadius?_of_cornerRadius? hn, SceneNode.borderRadius?_of_cornerRadius? hn',
      CornerRadius.css?_perCorner_of_beq hcorners]

/-- A rectangle with the given corners. -/
def rectangleWith (radius : CornerRadius) : SceneNode :=
  .shape .rectangle { name := "Box" } { cornerRadius := radius }

/-- Paddings of four pixels above and below and of eight at the sides, and corners of four pixels. -/
theorem shorthands_expand_four :
    WrittenAlike .rem [4, 8, 4, 8] ∧
      Collapses .rem [4, 8, 4, 8] (AllEqual [4, 8, 4, 8] ∧ ¬(0 : Float) < 4) 2
        (Sides.padding? ⟨4, 8, 4, 8⟩ .rem) ∧
      Collapses .rem [4, 4, 4, 4] ((4 : Float) == 0) 1 ((rectangleWith (.uniform 4)).borderRadius? .rem) ∧
      (rectangleWith (.perCorner ⟨4, 4, 4, 4⟩)).borderRadius? .rem =
        (rectangleWith (.uniform 4)).borderRadius? .rem := by
  have halike : WrittenAlike .rem [4, 8, 4, 8] := by
    have hone : ∀ x ∈ ([4, 8, 4, 8] : List Float), x = 4 ∨ x = 8 := by simp
    intro x hx y hy h
    obtain rfl | rfl := hone x hx <;> obtain rfl | rfl := hone y hy
    · rfl
    · exact absurd h (by decide)
    · exact absurd h (by decide)
    · rfl
  have hcount : Sides.tokenCount ⟨4, 8, 4, 8⟩ = 2 := by decide
  obtain ⟨hpadding, -, hradius, hequal⟩ := shorthands_expand .rem
  have hcollapses := hpadding ⟨4, 8, 4, 8⟩ halike
  rw [hcount] at hcollapses
  refine ⟨halike, hcollapses, hradius (rectangleWith (.uniform 4)) (.uniform 4) rfl, ?_⟩
  exact hequal _ _ 4 ⟨4, 4, 4, 4⟩ (by decide) (.inl rfl) rfl rfl

end Handoff
