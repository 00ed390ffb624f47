/-
# Handoff.Proofs.Tag.Selector — when two rules have different names

A class name is a text with numbers behind it and nothing between them, and sanitizing removes characters
from the text only. So two names are told apart by their stems or by the digits behind them: those are the
number of a text or an image, and for everything else the digits that the layer's name itself ends in,
followed by the depth and the place among the siblings. Texts and images never share a name with each
other. Other tags may: depth and place say nothing about the branch that a tag is on.
-/

import Handoff.Proofs.Tag.ClassNames
import Handoff.Proofs.Text.Digits

namespace Handoff.Tag

variable {root : SceneNode} {unit : LengthUnit} {detection : Detection} {start stop : Counter}
variable {t u v : Tag} {p q : List Nat}

/-! ## Names in two parts -/

/-- The text in front of the numbers of a class name, sanitized: `text` for a text, the parent's name and
`img` for an image, and the layer's name for everything else. -/
def nameAt (root : SceneNode) (p : List Nat) (h : Head) : String :=
  if h.isText then "text"
  else if h.isImage then
    Text.sanitize (if p = [] then "" else ((root.shownAt? p.dropLast).map SceneNode.name).getD "") ++
      "img"
  else Text.sanitize h.source.name

/-- The number that is taken from the counter at a position. Where the numbers do not last, they start
over. -/
def takenAt (start : Counter) (t : Tag) (p : List Nat) : Nat :=
  (start.skip (numberedIn (t.before p))).peek

/-- The numbers of a class name: the one that was taken, or depth and place. -/
def numbersAt (start : Counter) (t : Tag) (p : List Nat) (h : Head) : String :=
  if h.isNumbered then toString (takenAt start t p)
  else toString p.length ++ toString (p.getLast?.getD 0)

/-- The name of a tag without the digits at its end. -/
def stemAt (root : SceneNode) (p : List Nat) (h : Head) : String :=
  Text.stem (nameAt root p h)

/-- The digits at the end of a class name: those at the end of the name in front, and the numbers. -/
def digitsAt (root : SceneNode) (start : Counter) (t : Tag) (p : List Nat) (h : Head) : String :=
  Text.endDigits (nameAt root p h) ++ numbersAt start t p h

theorem sanitize_classNameAt (start : Counter) (t : Tag) (h : Head) :
    Text.sanitize (classNameAt root p (takenAt start t p) h) =
      nameAt root p h ++ numbersAt start t p h := by
  rw [classNameAt, nameAt, numbersAt, Head.isNumbered]
  by_cases htext : h.isText
  · rw [if_pos htext, if_pos htext, htext, Bool.true_or, if_pos rfl, Text.sanitize_append,
      Text.sanitize_toString, show Text.sanitize "text" = "text" by decide]
  · rw [if_neg htext, if_neg htext, Bool.eq_false_iff.mpr htext, Bool.false_or]
    by_cases himage : h.isImage
    · rw [if_pos himage, if_pos himage, if_pos himage, Text.sanitize_append, Text.sanitize_append,
        Text.sanitize_toString, show Text.sanitize "img" = "img" by decide]
    · rw [if_neg himage, if_neg himage, if_neg himage, Text.sanitize_append, Text.sanitize_append,
        Text.sanitize_toString, Text.sanitize_toString, String.append_assoc]

theorem isDigit_of_mem_numbersAt {h : Head} {c : Char} (hc : c ∈ (numbersAt start t p h).toList) :
    c.isDigit := by
  rw [numbersAt] at hc
  split at hc
  · exact Text.isDigit_of_mem_toString hc
  · rw [String.toList_append, List.mem_append] at hc
    rcases hc with hc | hc
    · exact Text.isDigit_of_mem_toString hc
    · exact Text.isDigit_of_mem_toString hc

/-- The name in front of a number that was taken ends in a letter. -/
theorem endDigits_nameAt {h : Head} (hnumbered : h.isNumbered) :
    Text.endDigits (nameAt root p h) = "" := by
  rw [nameAt]
  by_cases htext : h.isText
  · rw [if_pos htext]
    decide
  · have himage : h.isImage := by simpa [Head.isNumbered, htext] using hnumbered
    rw [if_neg htext, if_pos himage]
    exact Text.endDigits_append_of_not_isDigit _ ['i', 'm'] (c := 'g') rfl

/-! ## Names in a built tree -/

/-- The sanitized class name of a tag with declarations. -/
theorem sanitize_className_of_build (h : build root unit detection start = (some t, stop))
    (hp : t.at? p = some u) (hsome : ¬u.head.style.isEmpty) :
    Text.sanitize u.head.style.className = nameAt root p u.head ++ numbersAt start t p u.head := by
  obtain ⟨n, c, -, hbuilt⟩ := of_buildIn_at h hp
  obtain ⟨-, hhead, -⟩ := of_buildIn hbuilt
  have hstyle : u.head.style = .ofProperties
      (n.className (contextAt { unit } root p) (takenAt start t p))
      (n.declarations (contextAt { unit } root p)) := by
    rw [hhead]
    show (n.inferStyle _ _).1 = _
    rw [SceneNode.inferStyle_eq, takenAt]
  -- Only a record with declarations keeps the class name that was made for it.
  have hdeclared : n.declarations (contextAt { unit } root p) ≠ [] := by
    rw [hstyle, StyleRecord.isEmpty, StyleRecord.properties_ofProperties] at hsome
    simpa using hsome
  rw [← sanitize_classNameAt, hstyle, StyleRecord.className_ofProperties _ hdeclared, hhead]
  exact congrArg Text.sanitize (className_contextAt unit n _ _ _)

/-- Names with different stems, or with different digits behind them, are different. -/
theorem sanitize_className_ne (h : build root unit detection start = (some t, stop))
    (hp : t.at? p = some u) (hq : t.at? q = some v) (hu : ¬u.head.style.isEmpty)
    (hv : ¬v.head.style.isEmpty)
    (hne : stemAt root p u.head ≠ stemAt root q v.head ∨
      digitsAt root start t p u.head ≠ digitsAt root start t q v.head) :
    Text.sanitize u.head.style.className ≠ Text.sanitize v.head.style.className := by
  rw [sanitize_className_of_build h hp hu, sanitize_className_of_build h hq hv]
  intro heq
  -- All of the numbers are digits, so equal names have equal stems and equal digits.
  rcases hne with hstem | hdigits
  · apply hstem
    have hboth := congrArg Text.stem heq
    rwa [Text.stem_append _ fun c => isDigit_of_mem_numbersAt,
      Text.stem_append _ fun c => isDigit_of_mem_numbersAt] at hboth
  · apply hdigits
    have hboth := congrArg Text.endDigits heq
    rwa [Text.endDigits_append _ fun c => isDigit_of_mem_numbersAt,
      Text.endDigits_append _ fun c => isDigit_of_mem_numbersAt] at hboth

/-- As long as the numbers last, texts and images have different digits. -/
theorem digitsAt_ne (hroom : start.peek + numberedIn t.preorder < UInt32.size) (hne : p ≠ q)
    (hp : t.at? p = some u) (hq : t.at? q = some v) (hu : u.head.isNumbered)
    (hv : v.head.isNumbered) :
    digitsAt root start t p u.head ≠ digitsAt root start t q v.head := by
  have htaken {r : List Nat} {w : Tag} (hr : t.at? r = some w) : takenAt start t r = numberAt start t r :=
    Counter.peek_skip (Nat.lt_of_le_of_lt (numberAt_le hr) hroom)
  rw [digitsAt, digitsAt, endDigits_nameAt hu, endDigits_nameAt hv, numbersAt, numbersAt, if_pos hu,
    if_pos hv, htaken hp, htaken hq, String.empty_append, String.empty_append]
  exact fun heq => numberAt_ne hne hp hq hu hv (Text.toString_inj.mp heq)

/-- Layers of one name at one depth have one class name exactly if they have one place, whatever branches they are
on. -/
theorem sanitize_className_eq_iff (h : build root unit detection start = (some t, stop))
    (hp : t.at? p = some u) (hq : t.at? q = some v) (hu : ¬u.head.style.isEmpty)
    (hv : ¬v.head.style.isEmpty) (huplain : ¬u.head.isNumbered) (hvplain : ¬v.head.isNumbered)
    (hname : Text.sanitize u.head.source.name = Text.sanitize v.head.source.name)
    (hlength : p.length = q.length) :
    Text.sanitize u.head.style.className = Text.sanitize v.head.style.className ↔
      p.getLast?.getD 0 = q.getLast?.getD 0 := by
  have hplain {r : List Nat} {w : Head} (hw : ¬w.isNumbered) :
      nameAt root r w = Text.sanitize w.source.name := by
    rw [Head.isNumbered, Bool.or_eq_true, not_or] at hw
    rw [nameAt, if_neg hw.1, if_neg hw.2]
  rw [sanitize_className_of_build h hp hu, sanitize_className_of_build h hq hv, hplain huplain,
    hplain hvplain, hname, numbersAt, numbersAt, if_neg huplain, if_neg hvplain, hlength,
    String.append_right_inj, String.append_right_inj, Text.toString_inj]

/-- **When two rules have different names.** A visible root has a tree. Of two tags at different positions
that both declare something, the sanitized class names are different if both are texts or images, as long
as the numbers last; if their stems or their digits are different; and, in particular, if neither is a
text or an image, their layers have one name, and they have different places at one depth. Nothing else keeps
names apart: if such tags have one place at one depth, on whatever branches, they share their name. -/
theorem build_sanitize_className_ne (unit : LengthUnit) (detection : Detection) (hroot : root.visible) :
    ∃ t stop, build root unit detection {} = (some t, stop) ∧
      ∀ p q u v, p ≠ q → t.at? p = some u → t.at? q = some v →
        ¬u.head.style.isEmpty → ¬v.head.style.isEmpty →
        (1 + numberedIn t.preorder < UInt32.size → u.head.isNumbered → v.head.isNumbered →
          Text.sanitize u.head.style.className ≠ Text.sanitize v.head.style.className) ∧
        (stemAt root p u.head ≠ stemAt root q v.head ∨
            digitsAt root {} t p u.head ≠ digitsAt root {} t q v.head →
          Text.sanitize u.head.style.className ≠ Text.sanitize v.head.style.className) ∧
        (¬u.head.isNumbered → ¬v.head.isNumbered →
          Text.sanitize u.head.source.name = Text.sanitize v.head.source.name →
          p.length = q.length → p.getLast?.getD 0 ≠ q.getLast?.getD 0 →
          Text.sanitize u.head.style.className ≠ Text.sanitize v.head.style.className) ∧
        (¬u.head.isNumbered → ¬v.head.isNumbered →
          Text.sanitize u.head.source.name = Text.sanitize v.head.source.name →
          p.length = q.length → p.getLast?.getD 0 = q.getLast?.getD 0 →
          Text.sanitize u.head.style.className = Text.sanitize v.head.style.className) := by
  obtain ⟨t, stop, hbuilt⟩ := exists_build unit detection {} hroot
  refine ⟨t, stop, hbuilt, fun p q u v hne hp hq hu hv => ⟨?_, ?_, ?_, ?_⟩⟩
  · intro hroom hunumbered hvnumbered
    exact sanitize_className_ne hbuilt hp hq hu hv
      (.inr (digitsAt_ne hroom hne hp hq hunumbered hvnumbered))
  · exact sanitize_className_ne hbuilt hp hq hu hv
  · intro huplain hvplain hname hlength hplace heq
    exact hplace ((sanitize_className_eq_iff hbuilt hp hq hu hv huplain hvplain hname hlength).mp heq)
  · intro huplain hvplain hname hlength hplace
    exact (sanitize_className_eq_iff hbuilt hp hq hu hv huplain hvplain hname hlength).mpr hplace

/-- Two rows of one name with a cell in each. -/
def rows : SceneNode :=
  let cell : SceneNode := .shape .rectangle { name := "Cell" } {}
  .container .frame { name := "Page" } {}
    [.container .frame { name := "Row" } {} [cell], .container .frame { name := "Row" } {} [cell]]

/-- The two rows stand side by side and have different rules. -/
theorem build_sanitize_className_ne_rows :
    ∃ t stop u v, build rows .px .identify {} = (some t, stop) ∧
      t.at? [0] = some u ∧ t.at? [1] = some v ∧
      u.head.source.name = "Row" ∧ v.head.source.name = "Row" ∧
      Text.sanitize u.head.style.className ≠ Text.sanitize v.head.style.className := by
  obtain ⟨t, stop, hbuilt, h⟩ :=
    build_sanitize_className_ne .px .identify (show rows.visible by decide)
  have hrows : ∀ i ∈ [0, 1], ((build rows .px .identify {}).1.bind fun t => t.at? [i]).map
      (fun u => (u.head.source.name, u.head.isNumbered, u.head.style.isEmpty)) =
        some ("Row", false, false) := by
    decide
  rw [hbuilt] at hrows
  obtain ⟨u, hu, hurow⟩ := Option.map_eq_some_iff.mp (hrows 0 (by decide))
  obtain ⟨v, hv, hvrow⟩ := Option.map_eq_some_iff.mp (hrows 1 (by decide))
  simp only [Prod.mk.injEq] at hurow hvrow
  obtain ⟨huname, hunumbered, husome⟩ := hurow
  obtain ⟨hvname, hvnumbered, hvsome⟩ := hvrow
  refine ⟨t, stop, u, v, hbuilt, hu, hv, huname, hvname, ?_⟩
  exact (h [0] [1] u v (by decide) hu hv (by simp [husome]) (by simp [hvsome])).2.2.1
    (by simp [hunumbered]) (by simp [hvnumbered]) (by rw [huname, hvname]) rfl (by decide)

/-- The two cells stand on different branches, at one depth and place, and have rules of one name. -/
theorem not_forall_sanitize_className_ne :
    ¬∀ (root : SceneNode) (unit : LengthUnit) (detection : Detection) (t : Tag) (stop : Counter)
      (p q : List Nat) (u v : Tag), root.visible → build root unit detection {} = (some t, stop) →
      p ≠ q → t.at? p = some u → t.at? q = some v →
      ¬u.head.style.isEmpty → ¬v.head.style.isEmpty →
      Text.sanitize u.head.style.className ≠ Text.sanitize v.head.style.className := by
  intro h
  obtain ⟨t, stop, hbuilt⟩ := exists_build .px .identify {} (show rows.visible by decide)
  have hcells : ∀ i ∈ [0, 1], ((build rows .px .identify {}).1.bind fun t => t.at? [i, 0]).map
      (fun u => (u.head.style.className, u.head.style.isEmpty)) = some ("Cell20", false) := by
    decide
  rw [hbuilt] at hcells
  obtain ⟨u, hu, hucell⟩ := Option.map_eq_some_iff.mp (hcells 0 (by decide))
  obtain ⟨v, hv, hvcell⟩ := Option.map_eq_some_iff.mp (hcells 1 (by decide))
  rw [Prod.mk.injEq] at hucell hvcell
  refine h rows .px .identify t stop [0, 0] [1, 0] u v (by decide) hbuilt (by decide) hu hv
    (by simp [hucell.2]) (by simp [hvcell.2]) ?_
  rw [hucell.1, hvcell.1]

end Handoff.Tag
