/-
# Handoff.Proofs.Stylesheet.Placed — which tag a rule is written for

The records of a stylesheet do not say which tags they come from. Here each record is listed together with the
position of its tag; `map_record_placedRecords` is the licence for that. With the positions it can be said
which records a tree loses when declared components are put into it: those at and below the tags that are
replaced, and no others. The search takes whole subtrees out and the walk of the rules stops at what it puts in,
so the two trees are compared by one induction, in which the root differs from all other tags only in not being
replaced.
-/

import Handoff.Proofs.Tag.Replaced
import Handoff.Stylesheet.Rules

namespace Handoff.Stylesheet

variable {components : List UserComponent}

/-! ## Records with positions -/

structure PlacedRecord where
  /-- The position of the tag that the record belongs to. -/
  position : List Nat
  record : StyleRecord

/-- A record of a subtree, seen from the parent that has the subtree at this place. -/
def PlacedRecord.below (i : Nat) (r : PlacedRecord) : PlacedRecord :=
  { r with position := i :: r.position }

/-- The record of a tag by itself. -/
def ownRecords (h : Tag.Head) : List PlacedRecord :=
  if h.style.isEmpty then [] else [⟨[], h.style⟩]

mutual

/-- The style records that a tag tree is styled with, with the positions of their tags. -/
def placedRecords : Tag → List PlacedRecord
  | ⟨head, children⟩ =>
    if head.isInstance || head.isDefinition then []
    else ownRecords head ++ placedRecordsOfList 0 children

/-- The same for siblings, the first of which has the given place. -/
def placedRecordsOfList (place : Nat) : List Tag → List PlacedRecord
  | [] => []
  | t :: ts => (placedRecords t).map (PlacedRecord.below place) ++ placedRecordsOfList (place + 1) ts

end

mutual

/-- Without their positions, these are the records of the tree. -/
theorem map_record_placedRecords :
    (t : Tag) → (placedRecords t).map PlacedRecord.record = records t
  | ⟨head, children⟩ => by
    rw [placedRecords, records]
    split
    · rfl
    · rw [List.map_append, map_record_placedRecordsOfList 0 children, ownRecords]
      split <;> rfl

theorem map_record_placedRecordsOfList (place : Nat) :
    (ts : List Tag) → (placedRecordsOfList place ts).map PlacedRecord.record = recordsOfList ts
  | [] => rfl
  | t :: ts => by
    have hbelow : PlacedRecord.record ∘ PlacedRecord.below place = PlacedRecord.record := rfl
    rw [placedRecordsOfList, recordsOfList, List.map_append, List.map_map, hbelow,
      map_record_placedRecords t, map_record_placedRecordsOfList (place + 1) ts]

end

/-- A record of siblings is a record of one of them, seen from their parent. -/
theorem of_mem_placedRecordsOfList {r : PlacedRecord} {place : Nat} {ts : List Tag}
    (h : r ∈ placedRecordsOfList place ts) :
    ∃ i child r', ts[i]? = some child ∧ r' ∈ placedRecords child ∧ r = PlacedRecord.below (place + i) r' := by
  induction ts generalizing place with
  | nil => cases h
  | cons t ts ih =>
    rw [placedRecordsOfList, List.mem_append] at h
    rcases h with hfirst | hrest
    · obtain ⟨r', hr', rfl⟩ := List.mem_map.mp hfirst
      exact ⟨0, t, r', rfl, hr', rfl⟩
    · obtain ⟨i, child, r', hchild, hr', rfl⟩ := ih hrest
      exact ⟨i + 1, child, r', hchild, hr', by rw [Nat.add_assoc, Nat.add_comm 1]⟩

/-- Each record is that of the tag at its position. -/
theorem of_mem_placedRecords {r : PlacedRecord} {t : Tag} (h : r ∈ placedRecords t) :
    ∃ u, t.at? r.position = some u ∧ u.head.style = r.record := by
  induction t using Tag.induction_on_children generalizing r with
  | step head children ih =>
    rw [placedRecords] at h
    split at h
    · cases h
    · rcases List.mem_append.mp h with hown | hbelow
      · rw [ownRecords] at hown
        split at hown
        · cases hown
        · rw [List.mem_singleton.mp hown]
          exact ⟨⟨head, children⟩, rfl, rfl⟩
      · obtain ⟨i, child, r', hchild, hr', rfl⟩ := of_mem_placedRecordsOfList hbelow
        obtain ⟨u, hu, hstyle⟩ := ih child (List.mem_of_getElem? hchild) hr'
        refine ⟨u, ?_, hstyle⟩
        rw [Nat.zero_add]
        exact Tag.at?_cons_eq_some_iff.mpr ⟨child, hchild, hu⟩

/-! ## Records that are lost -/

/-- The records outside of some part of a tree. -/
def recordsOutside (inside : List Nat → Bool) (rs : List PlacedRecord) : List PlacedRecord :=
  rs.filter fun r => !inside r.position

/-- If each sibling loses the records inside of a part, seen from their parent, so do all together. -/
theorem placedRecordsOfList_map {g : Tag → Tag} {inside : List Nat → Bool} {place : Nat} {ts : List Tag}
    (h : ∀ i child, ts[i]? = some child →
      placedRecords (g child) = recordsOutside (fun p => inside ((place + i) :: p)) (placedRecords child)) :
    placedRecordsOfList place (ts.map g) = recordsOutside inside (placedRecordsOfList place ts) := by
  induction ts generalizing place with
  | nil => rfl
  | cons t ts ih =>
    have hfirst := h 0 t rfl
    have hrest : placedRecordsOfList (place + 1) (ts.map g) =
        recordsOutside inside (placedRecordsOfList (place + 1) ts) := by
      apply ih
      intro i child hchild
      rw [Nat.add_right_comm]
      exact h (i + 1) child hchild
    rw [List.map_cons, placedRecordsOfList, placedRecordsOfList, hrest, hfirst, recordsOutside,
      recordsOutside, recordsOutside, List.filter_append, List.filter_map]
    rfl

/-- If each child loses the records inside of a part that the tag itself is not in, so does the tree. -/
theorem placedRecords_map {g : Tag → Tag} {inside : List Nat → Bool} {t : Tag} (htop : inside [] = false)
    (h : ∀ i child, t.children[i]? = some child →
      placedRecords (g child) = recordsOutside (fun p => inside (i :: p)) (placedRecords child)) :
    placedRecords ⟨t.head, t.children.map g⟩ = recordsOutside inside (placedRecords t) := by
  obtain ⟨head, children⟩ := t
  have hown : recordsOutside inside (ownRecords head) = ownRecords head := by
    rw [recordsOutside, ownRecords]
    split
    · rfl
    · exact List.filter_cons_of_pos (by rw [htop]; rfl)
  have hbelow : placedRecordsOfList 0 (children.map g) =
      recordsOutside inside (placedRecordsOfList 0 children) := by
    refine placedRecordsOfList_map fun i child hchild => ?_
    rw [Nat.zero_add]
    exact h i child hchild
  rw [placedRecords, placedRecords, hbelow]
  split
  · rfl
  · rw [recordsOutside, recordsOutside, List.filter_append]
    exact congrArg (· ++ _) hown.symm

/-- A search that starts at a tag itself removes the records at and below what it replaces. -/
theorem placedRecords_substitute (t : Tag) :
    placedRecords (t.substitute components) =
      recordsOutside (t.inSubstituted components) (placedRecords t) := by
  induction t using Tag.induction_on_children with
  | step head children ih =>
    rcases Tag.Head.isInstance_or_isSubstituted_or_isSearched components head with
      hinstance | hsubstituted | hsearched
    · rw [Tag.substitute_of_isInstance hinstance, placedRecords, hinstance]
      rfl
    · -- An instance has no records, and all records of the tag are at or below it.
      obtain ⟨c, -, hnew⟩ := Tag.substitute_of_isSubstituted (t := ⟨head, children⟩) hsubstituted
      have hnone : placedRecords ⟨head.instantiate c, []⟩ = [] := by rw [placedRecords]; rfl
      rw [hnew, hnone, recordsOutside, eq_comm, List.filter_eq_nil_iff]
      intro r _
      rw [Tag.inSubstituted_of_isSubstituted hsubstituted]
      exact Bool.false_ne_true
    · rw [Tag.substitute_of_isSearched hsearched]
      refine placedRecords_map (Tag.Head.isSubstituted_of_isSearched hsearched) fun i child hchild => ?_
      rw [ih child (List.mem_of_getElem? hchild)]
      exact congrArg (recordsOutside · _) (funext fun p =>
        (Tag.inSubstituted_cons_of_isSearched hsearched hchild).symm)

theorem placedRecords_identify (t : Tag) :
    placedRecords (t.identify components) = recordsOutside (t.inReplaced components) (placedRecords t) := by
  rw [Tag.identify_eq]
  refine placedRecords_map rfl fun i child hchild => ?_
  rw [placedRecords_substitute]
  exact congrArg (recordsOutside · _) (funext fun p => (Tag.inReplaced_cons hchild).symm)

end Handoff.Stylesheet

namespace Handoff.Tag

open Stylesheet

/-- **Declared components replace exactly the outermost matches.** The root keeps its data, an instance keeps
all that is below it, an outermost tag that a component is declared for becomes an instance of the first such
component, and each other tag that is reached keeps its data and the order of its children; afterwards nothing
is left to be replaced. The flat rules are those of the records that are left when the records at and below the
replaced tags are removed. -/
theorem identify_replacesOutermost (components : List UserComponent) (t : Tag) :
    ReplacesOutermost components t (t.identify components) ∧
      (∀ p, t.inReplaced components p ↔ ∃ q, q <+: p ∧ IsReplaced components t q) ∧
      records t = (placedRecords t).map PlacedRecord.record ∧
      (∀ r ∈ placedRecords t, ∃ u, t.at? r.position = some u ∧ u.head.style = r.record) ∧
      records (t.identify components) =
        (recordsOutside (t.inReplaced components) (placedRecords t)).map PlacedRecord.record ∧
      flatRules (t.identify components) =
        String.join ((recordsOutside (t.inReplaced components) (placedRecords t)).map fun r =>
          "." ++ Text.sanitize r.record.className ++ " \x7b\n" ++
            "\n".intercalate (r.record.properties.map fun p => "  " ++ p.name ++ ": " ++ p.value ++ ";") ++
            "\n\x7d\n") := by
  have hrecords : records (t.identify components) =
      (recordsOutside (t.inReplaced components) (placedRecords t)).map PlacedRecord.record := by
    rw [← map_record_placedRecords, placedRecords_identify]
  refine ⟨replacesOutermost_identify components t, fun p => inReplaced_iff,
    (map_record_placedRecords t).symm, fun r hr => of_mem_placedRecords hr, hrecords, ?_⟩
  rw [flatRules, hrecords, List.map_map]
  rfl

end Handoff.Tag
