/-
# Handoff.Proofs.Scene.Codec — scenes are read back

A node is one flat object: the members of its layer, its type, its children and the members of its kind
share one space of keys. That no two of them have one key is proved once, and from then on each part is
read as if it stood alone. What is lost is the name of an unknown kind, which is written under a key that
nobody reads.
-/

import Handoff.Proofs.Scene.Attributes
import Handoff.Proofs.Scene.Tree

namespace Handoff.SceneNode

open Json

/-! ## What comes back -/

/-- The numbers of what a node has by its kind. -/
def kindNumbers : SceneNode → List Float
  | container _ _ box _ => box.numbers
  | shape _ _ geometry => geometry.numbers
  | text _ run => run.numbers
  | group _ _ => []
  | other _ _ _ => []

/-- The numbers of a node itself. -/
def numbers (n : SceneNode) : List Float :=
  n.layer.numbers ++ n.kindNumbers

mutual

/-- The scene in which every unknown kind has the name that all of them are written with. -/
def forgetKinds : SceneNode → SceneNode
  | container role layer box children => container role layer box (forgetKindsList children)
  | group layer children => group layer (forgetKindsList children)
  | shape form layer geometry => shape form layer geometry
  | text layer run => text layer run
  | other _ layer children => other "OTHER" layer (forgetKindsList children)

def forgetKindsList : List SceneNode → List SceneNode
  | [] => []
  | n :: ns => forgetKinds n :: forgetKindsList ns

end

/-- Whether the kind of a node is written with its name. -/
def keepsKind : SceneNode → Bool
  | other kind _ _ => kind == "OTHER"
  | _ => true

theorem forgetKindsList_eq_map (ns : List SceneNode) : forgetKindsList ns = ns.map forgetKinds := by
  induction ns with
  | nil => rw [forgetKindsList, List.map_nil]
  | cons n ns ih => rw [forgetKindsList, List.map_cons, ih]

theorem encodeItems_eq_map (ns : List SceneNode) : encodeItems ns = ns.map encode := by
  induction ns with
  | nil => rw [encodeItems, List.map_nil]
  | cons n ns ih => rw [encodeItems, List.map_cons, ih]

/-! ## The members of a node -/

/-- The members that a node is written with. -/
def members : SceneNode → List (String × Json)
  | container role layer box children =>
    layer.members ++ ("type", ofName ContainerRole.names role) ::
      ("children", .array (children.map encode)) :: box.members
  | group layer children =>
    layer.members ++ [("type", .text "GROUP"), ("children", .array (children.map encode))]
  | shape form layer geometry =>
    layer.members ++ ("type", ofName ShapeForm.names form) :: geometry.members
  | text layer run => layer.members ++ ("type", .text "TEXT") :: run.members
  | other kind layer children =>
    layer.members ++ [("type", .text "OTHER"), ("hostType", .text kind),
      ("children", .array (children.map encode))]

theorem encode_eq (n : SceneNode) : n.encode = .object n.members := by
  cases n with
  | container role layer box children => rw [encode, encodeItems_eq_map]; rfl
  | group layer children => rw [encode, encodeItems_eq_map]; rfl
  | other kind layer children => rw [encode, encodeItems_eq_map]; rfl
  | shape form layer geometry => rw [encode]; rfl
  | text layer run => rw [encode]; rfl

/-- No two parts of a node are written under one key. -/
theorem members_nodup (n : SceneNode) : (n.members.map (·.1)).Nodup := by
  cases n with
  | container role layer box children =>
    simp [members, Layer.members, Container.members, paintsMember]
  | group layer children => simp [members, Layer.members]
  | shape form layer geometry => simp [members, Layer.members, Shape.members, paintsMember]
  | text layer run => simp [members, Layer.members, TextRun.members, paintsMember]
  | other kind layer children => simp [members, Layer.members]

theorem holds_layer (n : SceneNode) : Holds n.members n.layer.members := by
  apply holds_of_subset n.members_nodup
  cases n <;> exact List.subset_append_left _ _

theorem member?_type (n : SceneNode) : member? n.members "type" = .ok (some (.text n.typeName)) := by
  have hmem : ("type", Json.text n.typeName) ∈ n.members := by
    cases n <;> simp [members, typeName, ofName]
  exact member?_of_mem n.members_nodup hmem

/-- The first member that is called `children` is the only one. -/
theorem decodeChildren_of_mem {members : List (String × Json)} (distinct : (members.map (·.1)).Nodup)
    {value : Json} (h : ("children", value) ∈ members) : decodeChildren members = decodeArray value := by
  induction members with
  | nil => cases h
  | cons member rest ih =>
    obtain ⟨key, other⟩ := member
    rw [List.map_cons, List.nodup_cons] at distinct
    rw [decodeChildren]
    rcases List.mem_cons.mp h with heq | hrest
    · cases heq
      exact if_pos rfl
    · have hne : key ≠ "children" := by
        rintro rfl
        exact distinct.1 (List.mem_map.mpr ⟨_, hrest, rfl⟩)
      rw [if_neg hne]
      exact ih distinct.2 hrest

/-! ## Nodes -/

/-- A node that was written is read by its kind. -/
theorem decode_encode_eq_ofKind {n : SceneNode} (h : AllFinite n.layer.numbers) :
    decode n.encode = ofKind n.typeName n.layer n.members (decodeChildren n.members) := by
  rw [encode_eq, decode, Layer.decode_members h n.holds_layer, ok_bind,
    required_of_member n.member?_type]
  rfl

theorem decodeItems_map {ns : List SceneNode} (h : ∀ n ∈ ns, decode n.encode = .ok n.forgetKinds) :
    decodeItems (ns.map encode) = .ok (ns.map forgetKinds) := by
  induction ns with
  | nil => rw [List.map_nil, decodeItems, List.map_nil]
  | cons n ns ih =>
    rw [List.map_cons, decodeItems, h n List.mem_cons_self,
      ih fun m hm => h m (List.mem_cons_of_mem n hm)]
    rfl

/-- No form of a shape has the name of a role. -/
theorem lookup_role_of_form (form : ShapeForm) :
    ContainerRole.names.lookup (nameOf ShapeForm.names form) = none := by
  cases form <;> decide

/-- A node is read back if its own numbers are finite and its children are read back. -/
theorem decode_encode_of_children {n : SceneNode} (h : AllFinite n.numbers)
    (ih : ∀ child ∈ n.children, decode child.encode = .ok child.forgetKinds) :
    decode n.encode = .ok n.forgetKinds := by
  have hchildren : ("children", .array (n.children.map encode)) ∈ n.members →
      decodeChildren n.members = .ok (forgetKindsList n.children) := by
    intro hmem
    rw [decodeChildren_of_mem n.members_nodup hmem, decodeArray, decodeItems_map ih,
      forgetKindsList_eq_map]
  obtain ⟨hlayer, hkind⟩ := allFinite_append.mp h
  rw [decode_encode_eq_ofKind hlayer]
  -- The layer is read for every kind alike; what is left is the part that only this kind has.
  cases n with
  | container role layer box ms =>
    have hbox : Holds (container role layer box ms).members box.members :=
      holds_of_subset (members_nodup _) fun m hm => by simp [members, hm]
    rw [ofKind, typeName, lookup_nameOf ContainerRole.names_all, hchildren (by simp [members, children])]
    simp only [Container.decode_members hkind hbox, ok_bind, decoded_pure, forgetKinds, SceneNode.layer,
      children]
  | group layer ms =>
    rw [hchildren (by simp [members, children])]
    rfl
  | shape form layer geometry =>
    have hgeometry : Holds (shape form layer geometry).members geometry.members :=
      holds_of_subset (members_nodup _) fun m hm => by simp [members, hm]
    rw [ofKind, typeName, lookup_role_of_form, lookup_nameOf ShapeForm.names_all]
    simp only [Shape.decode_members hkind hgeometry, ok_bind, decoded_pure, forgetKinds, SceneNode.layer]
  | text layer run =>
    have hrun : Holds (text layer run).members run.members :=
      holds_of_subset (members_nodup _) fun m hm => by simp [members, hm]
    show (TextRun.decode _ >>= _) = _
    rw [TextRun.decode_members hkind hrun]
    rfl
  | other kind layer ms =>
    rw [hchildren (by simp [members, children])]
    rfl

/-- A scene without infinite numbers is read back, but for the names of unknown kinds. -/
theorem decode_encode_of_finite {n : SceneNode} (h : ∀ m ∈ n.preorder, AllFinite m.numbers) :
    decode n.encode = .ok n.forgetKinds := by
  induction n using induction_on_children with
  | step n ih =>
    rw [forall_mem_preorder] at h
    exact decode_encode_of_children h.1 fun child hchild => ih child hchild (h.2 child hchild)

/-! ## What is lost -/

/-- Where every unknown kind has the name that is written, nothing is lost. -/
theorem forgetKinds_eq_self {n : SceneNode} (h : ∀ m ∈ n.preorder, m.keepsKind) :
    n.forgetKinds = n := by
  induction n using induction_on_children with
  | step n ih =>
    rw [forall_mem_preorder] at h
    have hchildren : forgetKindsList n.children = n.children := by
      rw [forgetKindsList_eq_map]
      exact (List.map_congr_left fun child hchild => ih child hchild (h.2 child hchild)).trans
        (List.map_id _)
    cases n with
    | container role layer box ms => rw [forgetKinds, show forgetKindsList ms = ms from hchildren]
    | group layer ms => rw [forgetKinds, show forgetKindsList ms = ms from hchildren]
    | other kind layer ms =>
      have hkind : kind = "OTHER" := by simpa [keepsKind] using h.1
      rw [forgetKinds, show forgetKindsList ms = ms from hchildren, hkind]
    | shape form layer geometry => rw [forgetKinds]
    | text layer run => rw [forgetKinds]

theorem children_forgetKinds (n : SceneNode) : n.forgetKinds.children = n.children.map forgetKinds := by
  rw [← forgetKindsList_eq_map]
  cases n with
  | container role layer box ms => rw [forgetKinds]; rfl
  | group layer ms => rw [forgetKinds]; rfl
  | other kind layer ms => rw [forgetKinds]; rfl
  | shape form layer geometry => rw [forgetKinds]; rfl
  | text layer run => rw [forgetKinds]; rfl

/-- What was read back has no other names for unknown kinds. -/
theorem keepsKind_forgetKinds (n : SceneNode) : ∀ m ∈ n.forgetKinds.preorder, m.keepsKind := by
  induction n using induction_on_children with
  | step n ih =>
    rw [forall_mem_preorder, children_forgetKinds, List.forall_mem_map]
    refine ⟨?_, ih⟩
    cases n <;> rw [forgetKinds] <;> rfl

/-! ## Alike after reading back -/

theorem beqList_map {f : SceneNode → SceneNode} {ns : List SceneNode} (h : beqList (ns.map f) ns) :
    ∀ n ∈ ns, (f n).beq n := by
  induction ns with
  | nil => simp
  | cons n ns ih =>
    rw [List.map_cons, beqList, Bool.and_eq_true] at h
    exact List.forall_mem_cons.mpr ⟨h.1, ih h.2⟩

/-- A node that is read back like itself has kept its name, and so have its children. -/
theorem keepsKind_of_beq_node {n : SceneNode} (h : n.forgetKinds.beq n) :
    n.keepsKind ∧ beqList (n.children.map forgetKinds) n.children := by
  cases n with
  | container role layer box ms =>
    simp only [forgetKinds, beq, Bool.and_eq_true, forgetKindsList_eq_map] at h
    exact ⟨rfl, h.2⟩
  | group layer ms =>
    simp only [forgetKinds, beq, Bool.and_eq_true, forgetKindsList_eq_map] at h
    exact ⟨rfl, h.2⟩
  | other kind layer ms =>
    simp only [forgetKinds, beq, Bool.and_eq_true, forgetKindsList_eq_map, beq_iff_eq] at h
    obtain ⟨⟨rfl, -⟩, hchildren⟩ := h
    exact ⟨rfl, hchildren⟩
  | shape form layer geometry => exact ⟨rfl, rfl⟩
  | text layer run => exact ⟨rfl, rfl⟩

/-- A scene that is read back like itself has lost no name, even if zeros are compared without signs. -/
theorem keepsKind_of_beq {n : SceneNode} (h : n.forgetKinds.beq n) : ∀ m ∈ n.preorder, m.keepsKind := by
  induction n using induction_on_children with
  | step n ih =>
    obtain ⟨hkind, hchildren⟩ := keepsKind_of_beq_node h
    rw [forall_mem_preorder]
    exact ⟨hkind, fun child hchild => ih child hchild (beqList_map hchildren child hchild)⟩

/-! ## The round trip -/

/-- **Decoding undoes encoding.** A scene of finite numbers is read back with every unknown kind called
`OTHER`. So it comes back as it was exactly if all of them had that name before, and otherwise what comes
back is not even alike. -/
theorem decode_encode_forgetKinds {n : SceneNode} (h : ∀ m ∈ n.preorder, AllFinite m.numbers) :
    decode n.encode = .ok n.forgetKinds ∧
      (decode n.encode = .ok n ↔ ∀ m ∈ n.preorder, m.keepsKind) ∧
      ((n.forgetKinds == n) = true → ∀ m ∈ n.preorder, m.keepsKind) := by
  have hread := decode_encode_of_finite h
  refine ⟨hread, ⟨fun hsame => ?_, fun hkinds => ?_⟩, keepsKind_of_beq⟩
  · -- What comes back has only names that are kept, so it can be the scene itself only if that has.
    rw [hread, Except.ok.injEq] at hsame
    rw [← hsame]
    exact keepsKind_forgetKinds n
  · rw [hread, forgetKinds_eq_self hkinds]

/-- A frame with four paints and unequal corners around a section, which is of an unknown kind, with a
text in it. -/
def board : SceneNode :=
  let gradient := Paint.linearGradient [⟨0, ⟨1, 0, 0, 1⟩⟩, ⟨1, ⟨0, 0, 1, 0.5⟩⟩] ⟨0, 1, 0, -1, 0, 1⟩
  let corners := CornerRadius.perCorner { topLeft := 4, bottomRight := 0.25 }
  container .frame { name := "Board", opacity := some 0.5, rotation := -90 }
    { fills := [.solid 1 0 0, gradient, .image, ⟨.unsupported, false, none⟩], cornerRadius := corners }
    [other "SECTION" { name := "Notes" }
      [text { name := "Title", positioning := .absolute }
        { characters := "Hello", letterSpacing := .percent 10, lineHeight := .pixels 24 }]]

/-- The section comes back as a node of another kind. -/
theorem decode_encode_board :
    decode board.encode = .ok board.forgetKinds ∧ decode board.encode ≠ .ok board ∧
      (board.forgetKinds == board) = false := by
  obtain ⟨hread, hsame, halike⟩ :=
    decode_encode_forgetKinds (show ∀ m ∈ board.preorder, AllFinite m.numbers by decide)
  have hlost : ¬∀ m ∈ board.preorder, m.keepsKind := by decide
  exact ⟨hread, fun h => hlost (hsame.mp h), Bool.eq_false_iff.mpr fun h => hlost (halike h)⟩

end Handoff.SceneNode
