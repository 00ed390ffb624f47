/-
# Handoff.Proofs.Scene.Sizes — which scenes are refused for their sizes

Checking stops at the first node that it refuses, and goes through a scene in pre-order. So its outcome is that
of a search: `find?` in the pre-order of a scene, and for a selection the first search that finds something.
Reading a document adds to that only that everything is decoded before anything is checked: where a size is
reported, the document was decoded to its end, and with it every scene of a selection.
-/

import Handoff.Proofs.Json.Codec
import Handoff.Proofs.Scene.Tree

namespace Handoff.SceneNode

open Json (ok_bind exists_of_bind_eq_ok bind_eq_ok_iff mapError_eq_ok_iff mapM_eq_ok_iff)

/-! ## Searching -/

/-- The node of a scene that checking stops at. -/
def offender? (n : SceneNode) : Option SceneNode :=
  n.preorder.find? hasNegativeSize

/-- What is said of a node that checking stops at. -/
def sizeError (n : SceneNode) : SceneError :=
  .negativeSize n.name n.layer.width n.layer.height

theorem offender?_eq_none_iff {n : SceneNode} : n.offender? = none ↔ ∀ m ∈ n.preorder, ¬m.hasNegativeSize :=
  List.find?_eq_none

/-- A node is looked at before its children, and these in turn. -/
theorem offender?_eq (n : SceneNode) :
    n.offender? = if n.hasNegativeSize then some n else n.children.findSome? offender? := by
  rw [offender?, preorder_eq_cons]
  by_cases hn : n.hasNegativeSize
  · rw [List.find?_cons_of_pos hn, if_pos hn]
  · rw [List.find?_cons_of_neg hn, if_neg hn, List.find?_flatMap]
    rfl

/-! ## Checking -/

/-- Refuses what was found. -/
def refuse : Option SceneNode → Except SceneError Unit
  | none => .ok ()
  | some n => .error n.sizeError

theorem refuse_eq_ok_iff {found : Option SceneNode} : refuse found = .ok () ↔ found = none := by
  cases found <;> simp [refuse]

/-- Siblings are checked in turn, up to the first one that is refused. -/
theorem validateList_eq_of {ns : List SceneNode} (h : ∀ n ∈ ns, n.validate = refuse n.offender?) :
    validateList ns = refuse (ns.findSome? offender?) := by
  induction ns with
  | nil => rw [validateList]; rfl
  | cons n ns ih =>
    obtain ⟨hn, hns⟩ := List.forall_mem_cons.mp h
    rw [validateList, hn, ih hns, List.findSome?_cons]
    cases n.offender? <;> rfl

theorem validate_eq_bind (n : SceneNode) :
    n.validate = n.validateSize >>= fun _ => validateList n.children := by
  have hleaf : n.validateSize = n.validateSize >>= fun _ => validateList [] := by
    rw [validateList]
    cases n.validateSize <;> rfl
  cases n with
  | container role layer box ms => rw [validate]; rfl
  | group layer ms => rw [validate]; rfl
  | other kind layer ms => rw [validate]; rfl
  -- What has no children is checked alone.
  | shape form layer geometry => rw [validate]; exact hleaf
  | text layer run => rw [validate]; exact hleaf

/-- Checking a scene is searching its pre-order. -/
theorem validate_eq (n : SceneNode) : n.validate = refuse n.offender? := by
  induction n using induction_on_children with
  | step n ih =>
    rw [validate_eq_bind, validateList_eq_of ih, offender?_eq, validateSize]
    split <;> rfl

theorem validateList_eq (ns : List SceneNode) : validateList ns = refuse (ns.findSome? offender?) :=
  validateList_eq_of fun n _ => n.validate_eq

/-! ## Decoding before checking -/

/-- Decodes, and then refuses what is found in the result. -/
def checked (decoded : Except SceneError α) (find : α → Option SceneNode) : Except SceneError α := do
  let a ← decoded
  refuse (find a)
  return a

section Checked

variable {decoded : Except SceneError α} {find : α → Option SceneNode}

theorem checked_eq_ok_iff {a : α} : checked decoded find = .ok a ↔ decoded = .ok a ∧ find a = none := by
  constructor
  · intro h
    obtain ⟨b, hb, h⟩ := exists_of_bind_eq_ok h
    obtain ⟨_, hfound, h⟩ := exists_of_bind_eq_ok h
    cases h
    exact ⟨hb, refuse_eq_ok_iff.mp hfound⟩
  · rintro ⟨rfl, hfound⟩
    rw [checked, ok_bind, hfound]
    rfl

/-- What was found is reported of what was decoded. -/
theorem checked_eq_error_iff {e : SceneError} (he : decoded ≠ .error e) :
    checked decoded find = .error e ↔ ∃ a n, decoded = .ok a ∧ find a = some n ∧ e = n.sizeError := by
  constructor
  · intro h
    cases hdecoded : decoded with
    | error e' =>
      rw [checked, hdecoded] at h
      exact absurd (hdecoded.trans h) he
    | ok a =>
      rw [checked, hdecoded, ok_bind] at h
      cases hfound : find a with
      | none =>
        rw [hfound] at h
        cases h
      | some n =>
        rw [hfound] at h
        cases h
        exact ⟨a, n, rfl, hfound, rfl⟩
  · rintro ⟨a, n, rfl, hfound, rfl⟩
    rw [checked, ok_bind, hfound]
    rfl

end Checked

/-- Reads a document without checking what it holds. -/
def decodeDocument (decode : Json → Json.Decoded α) (text : String) : Except SceneError α := do
  (decode (← readDocument text)).mapError .undecodable

theorem read_eq_checked (text : String) : read text = checked (decodeDocument ofDocument text) offender? := by
  rw [read, decodeDocument]
  cases readDocument text with
  | error e => rfl
  | ok j =>
    rw [ok_bind, ok_bind, accept, checked]
    simp only [validate_eq]

theorem readSelection_eq_checked (text : String) :
    readSelection text = checked (decodeDocument (Json.asList ofDocument) text) (·.findSome? offender?) := by
  rw [readSelection, decodeDocument]
  cases readDocument text with
  | error e => rfl
  | ok j =>
    rw [ok_bind, ok_bind, acceptSelection, checked]
    simp only [validateList_eq]

/-- Decoding says nothing of sizes. -/
theorem decodeDocument_ne_negativeSize (decode : Json → Json.Decoded α) (text name : String)
    (width height : Float) : decodeDocument decode text ≠ .error (.negativeSize name width height) := by
  intro h
  rw [decodeDocument, readDocument] at h
  -- Both steps have errors of their own, for a text that is no document and for one of something else.
  cases hread : Json.read text with
  | error e =>
    rw [hread] at h
    cases h
  | ok j =>
    rw [hread] at h
    have herror : (decode j).mapError SceneError.undecodable = .error (.negativeSize name width height) := h
    cases hdecode : decode j with
    | error e => rw [hdecode] at herror; cases herror
    | ok a => rw [hdecode] at herror; cases herror

/-! ## Documents -/

/-- The text is a document of this scene, whatever its sizes. -/
def Decodes (text : String) (n : SceneNode) : Prop :=
  ∃ j, readDocument text = .ok j ∧ ofDocument j = .ok n

/-- The text is a document of an array with one item for each of these scenes, whatever their sizes. -/
def DecodesAll (text : String) (ns : List SceneNode) : Prop :=
  ∃ items, readDocument text = .ok (.array items) ∧ items.map ofDocument = ns.map .ok

variable {text : String}

theorem decodes_iff {n : SceneNode} : Decodes text n ↔ decodeDocument ofDocument text = .ok n := by
  rw [decodeDocument, bind_eq_ok_iff]
  simp only [mapError_eq_ok_iff]
  rfl

theorem decodesAll_iff {ns : List SceneNode} :
    DecodesAll text ns ↔ decodeDocument (Json.asList ofDocument) text = .ok ns := by
  rw [decodeDocument, bind_eq_ok_iff]
  simp only [mapError_eq_ok_iff]
  constructor
  · rintro ⟨items, hread, hitems⟩
    exact ⟨.array items, hread, mapM_eq_ok_iff.mpr hitems⟩
  · rintro ⟨j, hread, hitems⟩
    cases j with
    | array items => exact ⟨items, hread, mapM_eq_ok_iff.mp hitems⟩
    | _ => cases hitems

/-- What is said of a size is said of the node that was found. -/
theorem negativeSize_eq_sizeError_iff {m : SceneNode} {name : String} {width height : Float} :
    SceneError.negativeSize name width height = m.sizeError ↔
      (m.name, m.layer.width, m.layer.height) = (name, width, height) := by
  rw [sizeError, SceneError.negativeSize.injEq, Prod.mk.injEq, Prod.mk.injEq, eq_comm (a := name),
    eq_comm (a := width), eq_comm (a := height)]

/-- **Scenes are refused exactly for negative sizes, at the first node that has one.** A text is read as a scene
exactly if it is a document of that scene and no node in it, visible or not, has a negative width or height. A size
is reported exactly if the text is a document of some scene with such a node, and it is that of the first one in
pre-order. It is the same with a selection: all of its scenes are decoded before any is checked, and the node that
is reported is the first one of the first scene that has any. -/
theorem read_refuses_first_negativeSize (text : String) :
    (∀ n, read text = .ok n ↔ Decodes text n ∧ ∀ m ∈ n.preorder, ¬m.hasNegativeSize) ∧
    (∀ name width height, read text = .error (.negativeSize name width height) ↔
      ∃ n m, Decodes text n ∧ n.preorder.find? hasNegativeSize = some m ∧
        (m.name, m.layer.width, m.layer.height) = (name, width, height)) ∧
    (∀ ns, readSelection text = .ok ns ↔
      DecodesAll text ns ∧ ∀ n ∈ ns, ∀ m ∈ n.preorder, ¬m.hasNegativeSize) ∧
    ∀ name width height, readSelection text = .error (.negativeSize name width height) ↔
      ∃ ns m, DecodesAll text ns ∧ ns.findSome? (fun n => n.preorder.find? hasNegativeSize) = some m ∧
        (m.name, m.layer.width, m.layer.height) = (name, width, height) := by
  rw [read_eq_checked, readSelection_eq_checked]
  simp only [decodes_iff, decodesAll_iff, ← negativeSize_eq_sizeError_iff]
  refine ⟨fun n => ?_, fun name width height => ?_, fun ns => ?_, fun name width height => ?_⟩
  · rw [checked_eq_ok_iff, offender?_eq_none_iff]
  · exact checked_eq_error_iff (decodeDocument_ne_negativeSize _ _ _ _ _)
  · rw [checked_eq_ok_iff, List.findSome?_eq_none_iff]
    simp only [offender?_eq_none_iff]
  · exact checked_eq_error_iff (decodeDocument_ne_negativeSize _ _ _ _ _)

/-- Only the hidden rule, a kind without children, has a negative size; the text below the group comes first in
pre-order and has none. -/
example : (offender? (.container .frame { name := "Page" } {}
    [.group { name := "Row" } [.text { name := "Label", width := 4 } {}],
      .shape .line { name := "Rule", visible := false, height := -2 } {},
      .other "SECTION" { name := "Rest", width := -1 } []])).map name = some "Rule" := by
  decide

end Handoff.SceneNode
