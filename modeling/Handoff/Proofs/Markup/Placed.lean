/-
# Handoff.Proofs.Markup.Placed — which tag a line is written for

The lines of a body do not say which tags they come from. Here each line is written together with the
position of its tag; `map_line_placedLines` is the licence for that, since without the positions these are
the lines of the body. Each is the first or the last line of its tag, and the tags that have lines are those
without an instance above them. What a tree looks up is then a list of positions and class names, and one
equation says what a tag contributes to it, whichever of the four forms its lines have.
-/

import Handoff.Markup.Body
import Handoff.Proofs.Tag.Tree

namespace Handoff.Markup

variable {dialect : Dialect} {level : Nat} {t u : Tag} {p : List Nat}

/-! ## Lines with positions -/

structure PlacedLine where
  /-- The position of the tag that the line is written for. -/
  position : List Nat
  line : Line

/-- A line of a subtree, seen from the parent that has the subtree at this place. -/
def PlacedLine.below (i : Nat) (l : PlacedLine) : PlacedLine :=
  { l with position := i :: l.position }

mutual

/-- The lines of a tag tree whose root stands at the given level, with the positions of their tags. -/
def placedLines (dialect : Dialect) (level : Nat) : Tag → List PlacedLine
  | ⟨head, children⟩ =>
    if head.isInstance then [⟨[], level, .empty (instanceElement head)⟩]
    else if children.isEmpty then [⟨[], leafLine dialect level head⟩]
    else
      ⟨[], level, .opening (elementOf dialect head)⟩
        :: (placedLinesOfList dialect (level + 1) 0 children
          ++ [⟨[], level, .closing (elementName dialect head)⟩])

/-- The same for siblings, the first of which has the given place. -/
def placedLinesOfList (dialect : Dialect) (level : Nat) (place : Nat) : List Tag → List PlacedLine
  | [] => []
  | t :: ts =>
    (placedLines dialect level t).map (PlacedLine.below place)
      ++ placedLinesOfList dialect level (place + 1) ts

end

mutual

/-- Without their positions, these are the lines of the body. -/
theorem map_line_placedLines (dialect : Dialect) (level : Nat) :
    (t : Tag) → (placedLines dialect level t).map PlacedLine.line = lines dialect level t
  | ⟨head, children⟩ => by
    rw [placedLines, lines]
    by_cases hinstance : head.isInstance
    · rw [if_pos hinstance, if_pos hinstance]
      rfl
    · rw [if_neg hinstance, if_neg hinstance]
      by_cases hleaf : children.isEmpty
      · rw [if_pos hleaf, if_pos hleaf]
        rfl
      · rw [if_neg hleaf, if_neg hleaf, List.map_cons, List.map_append,
          map_line_placedLinesOfList dialect (level + 1) 0 children]
        rfl

theorem map_line_placedLinesOfList (dialect : Dialect) (level place : Nat) :
    (ts : List Tag) →
      (placedLinesOfList dialect level place ts).map PlacedLine.line = linesOfList dialect level ts
  | [] => rfl
  | t :: ts => by
    have hbelow : PlacedLine.line ∘ PlacedLine.below place = PlacedLine.line := rfl
    rw [placedLinesOfList, linesOfList, List.map_append, List.map_map, hbelow,
      map_line_placedLines dialect level t, map_line_placedLinesOfList dialect level (place + 1) ts]

end

/-- The body is the texts of its placed lines, with line breaks between them. -/
theorem body_eq_intercalate (dialect : Dialect) (t : Tag) :
    body dialect t = "\n".intercalate ((placedLines dialect 0 t).map fun l => l.line.text) := by
  rw [body, ← map_line_placedLines, List.map_map]
  rfl

/-! ## The first and the last line of a tag -/

/-- Whether a tag is one line: an instance, or a tag without children. -/
def isOneLine (t : Tag) : Bool :=
  t.head.isInstance || t.children.isEmpty

/-- The line that a tag begins with. -/
def firstLine (dialect : Dialect) (level : Nat) (t : Tag) : Line :=
  if t.head.isInstance then ⟨level, .empty (instanceElement t.head)⟩
  else if t.children.isEmpty then leafLine dialect level t.head
  else ⟨level, .opening (elementOf dialect t.head)⟩

/-- The line that a tag of several lines ends with. -/
def lastLine (dialect : Dialect) (level : Nat) (t : Tag) : Line :=
  ⟨level, .closing (elementName dialect t.head)⟩

theorem firstLine_of_not_isOneLine {t : Tag} (h : ¬isOneLine t) :
    firstLine dialect level t = ⟨level, .opening (elementOf dialect t.head)⟩ := by
  rw [isOneLine, Bool.or_eq_true, not_or] at h
  rw [firstLine, if_neg h.1, if_neg h.2]

/-! ## Lines and their tags -/

/-- A line of siblings is a line of one of them, seen from their parent. -/
theorem of_mem_placedLinesOfList {l : PlacedLine} {place : Nat} {ts : List Tag}
    (h : l ∈ placedLinesOfList dialect level place ts) :
    ∃ i child l', ts[i]? = some child ∧ l' ∈ placedLines dialect level child ∧
      l = PlacedLine.below (place + i) l' := by
  induction ts generalizing place with
  | nil => cases h
  | cons t ts ih =>
    rw [placedLinesOfList, List.mem_append] at h
    rcases h with hfirst | hrest
    · obtain ⟨l', hl', rfl⟩ := List.mem_map.mp hfirst
      exact ⟨0, t, l', rfl, hl', rfl⟩
    · obtain ⟨i, child, l', hchild, hl', rfl⟩ := ih hrest
      exact ⟨i + 1, child, l', hchild, hl', by rw [Nat.add_assoc, Nat.add_comm 1]⟩

theorem mem_placedLinesOfList {place i : Nat} {ts : List Tag} {child : Tag} {l : PlacedLine}
    (hchild : ts[i]? = some child) (hl : l ∈ placedLines dialect level child) :
    PlacedLine.below (place + i) l ∈ placedLinesOfList dialect level place ts := by
  induction ts generalizing place i with
  | nil => cases hchild
  | cons t ts ih =>
    rw [placedLinesOfList, List.mem_append]
    cases i with
    | zero =>
      cases hchild
      exact .inl (List.mem_map_of_mem hl)
    | succ i =>
      have hplace : place + (i + 1) = place + 1 + i := Nat.add_right_comm place i 1
      rw [hplace]
      exact .inr (ih hchild)

/-- What is collected from the lines of siblings is collected from each of them, seen from their parent. -/
theorem filterMap_placedLinesOfList {α : Type} {f : PlacedLine → Option α} {g : Tag → List α} {place : Nat}
    {ts : List Tag} (h : ∀ i child, ts[i]? = some child →
      (placedLines dialect level child).filterMap (f ∘ PlacedLine.below (place + i)) = g child) :
    (placedLinesOfList dialect level place ts).filterMap f = ts.flatMap g := by
  induction ts generalizing place with
  | nil => rfl
  | cons t ts ih =>
    have hrest : (placedLinesOfList dialect level (place + 1) ts).filterMap f = ts.flatMap g := by
      apply ih
      intro i child hchild
      rw [Nat.add_right_comm]
      exact h (i + 1) child hchild
    rw [placedLinesOfList, List.filterMap_append, List.filterMap_map, List.flatMap_cons, hrest]
    exact congrArg (· ++ _) (h 0 t rfl)

/-- Every line is the first or the last line of the tag at its position, on the level of that tag, and no tag
above it is an instance. -/
theorem of_mem_placedLines {l : PlacedLine} {t : Tag} (h : l ∈ placedLines dialect level t) :
    ∃ u, t.at? l.position = some u ∧ t.AllAbove (fun h => ¬h.isInstance) l.position ∧
      (l.line = firstLine dialect (level + l.position.length) u ∨
        ¬isOneLine u ∧ l.line = lastLine dialect (level + l.position.length) u) := by
  induction t using Tag.induction_on_children generalizing level l with
  | step head children ih =>
    rw [placedLines] at h
    split at h
    next hinstance =>
      rw [List.mem_singleton.mp h]
      exact ⟨⟨head, children⟩, rfl, Tag.allAbove_nil _ _, .inl (if_pos hinstance).symm⟩
    next hinstance =>
      split at h
      next hleaf =>
        rw [List.mem_singleton.mp h]
        refine ⟨⟨head, children⟩, rfl, Tag.allAbove_nil _ _, .inl ?_⟩
        rw [firstLine, if_neg hinstance, if_pos hleaf]
        rfl
      next hleaf =>
        have hopens : ¬isOneLine ⟨head, children⟩ := by
          rw [isOneLine, Bool.or_eq_true]
          exact not_or.mpr ⟨hinstance, hleaf⟩
        rw [List.mem_cons, List.mem_append, List.mem_singleton] at h
        rcases h with rfl | hbelow | rfl
        · exact ⟨⟨head, children⟩, rfl, Tag.allAbove_nil _ _,
            .inl (firstLine_of_not_isOneLine hopens).symm⟩
        · obtain ⟨i, child, l', hchild, hl', rfl⟩ := of_mem_placedLinesOfList hbelow
          obtain ⟨u, hu, habove, hline⟩ := ih child (List.mem_of_getElem? hchild) hl'
          have hposition : (PlacedLine.below (0 + i) l').position = i :: l'.position := by
            rw [Nat.zero_add]
            rfl
          rw [hposition]
          refine ⟨u, Tag.at?_cons_eq_some_iff.mpr ⟨child, hchild, hu⟩,
            (Tag.allAbove_cons_iff hchild).mpr ⟨hinstance, habove⟩, ?_⟩
          -- One step of the position is one level of the line.
          show l'.line = firstLine dialect (level + (l'.position.length + 1)) u ∨
            ¬isOneLine u ∧ l'.line = lastLine dialect (level + (l'.position.length + 1)) u
          rwa [Nat.add_comm l'.position.length, ← Nat.add_assoc]
        · exact ⟨⟨head, children⟩, rfl, Tag.allAbove_nil _ _, .inr ⟨hopens, rfl⟩⟩

/-- Every tag that has no instance above it has a line. -/
theorem exists_mem_placedLines (dialect : Dialect) (level : Nat) (hu : t.at? p = some u)
    (habove : t.AllAbove (fun h => ¬h.isInstance) p) :
    ∃ line, ⟨p, line⟩ ∈ placedLines dialect level t := by
  induction p generalizing t level with
  | nil =>
    obtain ⟨head, children⟩ := t
    rw [placedLines]
    split
    · exact ⟨_, List.mem_cons_self⟩
    · split <;> exact ⟨_, List.mem_cons_self⟩
  | cons i p ih =>
    obtain ⟨child, hchild, hu⟩ := Tag.at?_cons_eq_some_iff.mp hu
    obtain ⟨htop, habove⟩ := (Tag.allAbove_cons_iff hchild).mp habove
    obtain ⟨line, hline⟩ := ih (level + 1) hu habove
    obtain ⟨head, children⟩ := t
    have hopens : ¬children.isEmpty := by
      rw [List.isEmpty_iff]
      rintro rfl
      cases hchild
    have hbelow : PlacedLine.below (0 + i) ⟨p, line⟩ ∈ placedLinesOfList dialect (level + 1) 0 children :=
      mem_placedLinesOfList hchild hline
    rw [Nat.zero_add] at hbelow
    refine ⟨line, ?_⟩
    rw [placedLines, if_neg htop, if_neg hopens]
    exact List.mem_cons_of_mem _ (List.mem_append_left _ hbelow)

/-! ## Lookups -/

/-- The class that a line looks up. -/
def LineForm.styleClass? : LineForm → Option String
  | .opening element => element.styleClass
  | .closing _ => none
  | .empty element => element.styleClass
  | .characters element _ => element.styleClass

theorem styleClass?_leafLine (dialect : Dialect) (level : Nat) (head : Tag.Head) :
    (leafLine dialect level head).form.styleClass? = styleClass? dialect head := by
  rw [leafLine]
  split <;> rfl

/-- A tag looks its class up in its first line, and an instance looks up nothing. -/
theorem styleClass?_firstLine (dialect : Dialect) (level : Nat) (t : Tag) :
    (firstLine dialect level t).form.styleClass? =
      if t.head.isInstance then none else styleClass? dialect t.head := by
  rw [firstLine]
  split
  · rfl
  · split
    · exact styleClass?_leafLine dialect level t.head
    · rfl

/-- A class that is looked up for the tag at a position. -/
structure Lookup where
  position : List Nat
  className : String

def Lookup.below (i : Nat) (l : Lookup) : Lookup :=
  { l with position := i :: l.position }

def PlacedLine.lookup? (l : PlacedLine) : Option Lookup :=
  l.line.form.styleClass?.map (Lookup.mk l.position)

/-- All that the body of a tag tree looks up, in the order of its lines. -/
def lookups (dialect : Dialect) (t : Tag) : List Lookup :=
  (placedLines dialect 0 t).filterMap PlacedLine.lookup?

/-- What a tag looks up by itself. -/
def ownLookups (dialect : Dialect) (h : Tag.Head) : List Lookup :=
  (styleClass? dialect h).toList.map (Lookup.mk [])

/-- A tag looks up its own class in front of what its children look up; an instance looks up nothing. -/
theorem filterMap_lookup?_placedLines (dialect : Dialect) (level : Nat) (head : Tag.Head)
    (children : List Tag) :
    (placedLines dialect level ⟨head, children⟩).filterMap PlacedLine.lookup? =
      if head.isInstance then []
      else ownLookups dialect head
        ++ (placedLinesOfList dialect (level + 1) 0 children).filterMap PlacedLine.lookup? := by
  have hown (line : Line) (h : line.form.styleClass? = styleClass? dialect head) :
      ([⟨[], line⟩] : List PlacedLine).filterMap PlacedLine.lookup? = ownLookups dialect head := by
    rw [ownLookups, ← h]
    cases hclass : line.form.styleClass? with
    | none => simp [PlacedLine.lookup?, hclass]
    | some className => simp [PlacedLine.lookup?, hclass]
  rw [placedLines]
  by_cases hinstance : head.isInstance
  · rw [if_pos hinstance, if_pos hinstance]
    rfl
  · rw [if_neg hinstance, if_neg hinstance]
    by_cases hleaf : children.isEmpty
    · rw [if_pos hleaf, hown _ (styleClass?_leafLine dialect level head), List.isEmpty_iff.mp hleaf,
        placedLinesOfList, List.filterMap_nil, List.append_nil]
    · -- The closing line looks up nothing.
      rw [if_neg hleaf, ← List.singleton_append, List.filterMap_append, hown _ rfl, List.filterMap_append]
      exact congrArg _ (List.append_nil _)

/-- Siblings look up what each of them looks up, seen from their parent. -/
theorem filterMap_lookup?_placedLinesOfList (dialect : Dialect) (level place : Nat) (t : Tag)
    (ts : List Tag) :
    (placedLinesOfList dialect level place (t :: ts)).filterMap PlacedLine.lookup? =
      ((placedLines dialect level t).filterMap PlacedLine.lookup?).map (Lookup.below place)
        ++ (placedLinesOfList dialect level (place + 1) ts).filterMap PlacedLine.lookup? := by
  have hbelow : PlacedLine.lookup? ∘ PlacedLine.below place =
      fun l => l.lookup?.map (Lookup.below place) := by
    funext l
    simp only [Function.comp_apply, PlacedLine.lookup?, PlacedLine.below, Option.map_map]
    rfl
  rw [placedLinesOfList, List.filterMap_append, List.filterMap_map, hbelow, List.map_filterMap]

end Handoff.Markup
