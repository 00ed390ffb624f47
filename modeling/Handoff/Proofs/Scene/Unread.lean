/-
# Handoff.Proofs.Scene.Unread — members that no reader looks at

A node and what its kind adds to it share one object, and which members of that object count depends on one of
them, the type. `strip` takes away all that do not count, at every level: members that belong to no field, and
those that belong to fields of other kinds only, whatever they hold. Decoding looks at a member by its key and at
nothing else, so it suffices to know for each group of fields by which keys it is read.
-/

import Handoff.Proofs.Json.Codec
import Handoff.Proofs.Json.Parts
import Handoff.Scene.Decoder

namespace Handoff

open Json

/-! ## Keys -/

/-- The keys that every node has. -/
def Layer.keys : List String :=
  ["id", "name", "visible", "x", "y", "width", "height", "rotation", "opacity", "layoutPositioning",
   "layoutGrow"]

def Container.keys : List String :=
  ["fills", "strokes", "strokeWeight", "cornerRadius", "layoutMode", "primaryAxisAlignItems",
   "counterAxisAlignItems", "primaryAxisSizingMode", "counterAxisSizingMode", "paddingTop", "paddingRight",
   "paddingBottom", "paddingLeft", "itemSpacing"]

def Shape.keys : List String :=
  ["fills", "strokes", "strokeWeight", "cornerRadius"]

def TextRun.keys : List String :=
  ["characters", "fontSize", "fontName", "letterSpacing", "lineHeight", "textAlignHorizontal",
   "textAlignVertical", "textDecoration", "fills", "strokes"]

/-! ## What readers look at -/

/-- Whether two lists of members are the same to a reader of these keys. -/
def AgreeOn (keys : List String) (members members' : List (String × Json)) : Prop :=
  ∀ key ∈ keys, member? members key = member? members' key

section Agree

variable {members members' : List (String × Json)}

theorem Layer.decode_congr (h : AgreeOn Layer.keys members members') :
    Layer.decode members = Layer.decode members' := by
  simp only [AgreeOn, Layer.keys, List.forall_mem_cons] at h
  simp only [Layer.decode, Record.required, Record.optional, Record.field?, h]

theorem Container.decode_congr (h : AgreeOn Container.keys members members') :
    Container.decode members = Container.decode members' := by
  simp only [AgreeOn, Container.keys, List.forall_mem_cons] at h
  simp only [Container.decode, Container.update, Record.optional, Record.field?, h]

theorem Shape.decode_congr (h : AgreeOn Shape.keys members members') :
    Shape.decode members = Shape.decode members' := by
  simp only [AgreeOn, Shape.keys, List.forall_mem_cons] at h
  simp only [Shape.decode, Record.optional, Record.field?, h]

theorem TextRun.decode_congr (h : AgreeOn TextRun.keys members members') :
    TextRun.decode members = TextRun.decode members' := by
  simp only [AgreeOn, TextRun.keys, List.forall_mem_cons] at h
  simp only [TextRun.decode, TextRun.update, Record.optional, Record.field?, h]

end Agree

namespace SceneNode

/-- The keys of what a kind adds to a node. A group and every kind that is not modelled add only children: the name
of such a kind is written as a member of its own, but never read. -/
def kindKeys (kind : String) : List String :=
  if kind ∈ ["FRAME", "INSTANCE", "COMPONENT"] then "children" :: Container.keys
  else if kind ∈ ["RECTANGLE", "ELLIPSE", "POLYGON", "STAR", "LINE", "VECTOR"] then Shape.keys
  else if kind = "TEXT" then TextRun.keys
  else ["children"]

/-- The kind that members name, if they name one. -/
def kind? (members : List (String × Json)) : Option String :=
  match members.find? fun m => m.1 == "type" with
  | some (_, .text kind) => some kind
  | _ => none

/-- Whether a key is that of a field: of any node, the type, or of the given kind. -/
def isModelled (kind : Option String) (key : String) : Bool :=
  Layer.keys.contains key || key == "type" || kind.any fun kind => (kindKeys kind).contains key

mutual

/-- The value of a node without the members that belong to no field of it, and so for each of its children. -/
def strip : Json → Json
  | .object members => .object (stripMembers (kind? members) members)
  | value => value

/-- The members of a node of the given kind that belong to its fields. Where `children` is one of them, they
are stripped in turn. -/
def stripMembers (kind : Option String) : List (String × Json) → List (String × Json)
  | [] => []
  | (key, value) :: members =>
    if isModelled kind key then
      (key, if key = "children" then stripArray value else value) :: stripMembers kind members
    else stripMembers kind members

def stripArray : Json → Json
  | .array items => .array (stripItems items)
  | value => value

def stripItems : List Json → List Json
  | [] => []
  | item :: items => strip item :: stripItems items

end

/-! ## Kinds -/

theorem isSome_lookup_role {kind : String} :
    (ContainerRole.names.lookup kind).isSome ↔ kind ∈ ["FRAME", "INSTANCE", "COMPONENT"] := by
  simp [List.lookup_isSome_iff, ContainerRole.names]

theorem isSome_lookup_form {kind : String} :
    (ShapeForm.names.lookup kind).isSome ↔
      kind ∈ ["RECTANGLE", "ELLIPSE", "POLYGON", "STAR", "LINE", "VECTOR"] := by
  simp [List.lookup_isSome_iff, ShapeForm.names]

/-- What a kind adds to a node is read by the keys of that kind, and children only if it has any. -/
theorem ofKind_congr {kind : String} {members members' : List (String × Json)}
    {children children' : Decoded (List SceneNode)} (layer : Layer)
    (hkeys : ∀ key ∈ kindKeys kind, key ≠ "children" → member? members key = member? members' key)
    (hchildren : "children" ∈ kindKeys kind → children = children') :
    ofKind kind layer members children = ofKind kind layer members' children' := by
  rw [ofKind, ofKind]
  -- Decoding looks the kind up in one table after the other, and each table has keys of its own.
  cases hrole : ContainerRole.names.lookup kind with
  | some role =>
    have hkind : kindKeys kind = "children" :: Container.keys :=
      if_pos (isSome_lookup_role.mp (by rw [hrole]; rfl))
    rw [hkind] at hkeys hchildren
    have hbox : Container.decode members = Container.decode members' :=
      Container.decode_congr fun key hkey => hkeys key (List.mem_cons_of_mem _ hkey) fun heq =>
        absurd (heq ▸ hkey) (by decide)
    rw [hbox, hchildren List.mem_cons_self]
  | none =>
    have hnone : kind ∉ ["FRAME", "INSTANCE", "COMPONENT"] := fun h => by
      simpa [hrole] using isSome_lookup_role.mpr h
    cases hform : ShapeForm.names.lookup kind with
    | some form =>
      have hkind : kindKeys kind = Shape.keys := by
        rw [kindKeys, if_neg hnone, if_pos (isSome_lookup_form.mp (by rw [hform]; rfl))]
      rw [hkind] at hkeys
      have hgeometry : Shape.decode members = Shape.decode members' :=
        Shape.decode_congr fun key hkey => hkeys key hkey fun heq => absurd (heq ▸ hkey) (by decide)
      rw [hgeometry]
    | none =>
      have hnone' : kind ∉ ["RECTANGLE", "ELLIPSE", "POLYGON", "STAR", "LINE", "VECTOR"] := fun h => by
        simpa [hform] using isSome_lookup_form.mpr h
      rw [kindKeys, if_neg hnone, if_neg hnone'] at hkeys hchildren
      by_cases htext : kind = "TEXT"
      · rw [if_pos htext] at hkeys
        have hrun : TextRun.decode members = TextRun.decode members' :=
          TextRun.decode_congr fun key hkey => hkeys key hkey fun heq => absurd (heq ▸ hkey) (by decide)
        show (if kind = "TEXT" then _ else _) = if kind = "TEXT" then _ else _
        rw [if_pos htext, if_pos htext, hrun]
      · rw [if_neg htext] at hchildren
        rw [hchildren List.mem_cons_self]
        show (if kind = "TEXT" then _ else _) = if kind = "TEXT" then _ else _
        rw [if_neg htext, if_neg htext]

/-! ## Stripping -/

theorem stripItems_eq_map (items : List Json) : stripItems items = items.map strip := by
  induction items with
  | nil => rw [stripItems, List.map_nil]
  | cons item items ih => rw [stripItems, List.map_cons, ih]

/-- A member of a field is found as it was, but for the children. -/
theorem member?_stripMembers {kind : Option String} {key : String} (hkey : isModelled kind key)
    (hne : key ≠ "children") (members : List (String × Json)) :
    member? (stripMembers kind members) key = member? members key := by
  have hfilter : (stripMembers kind members).filter (fun m => m.1 == key) =
      members.filter fun m => m.1 == key := by
    induction members with
    | nil => rw [stripMembers]
    | cons m members ih =>
      obtain ⟨name, value⟩ := m
      rw [stripMembers]
      by_cases hname : name = key
      · subst hname
        rw [if_pos hkey, if_neg hne, List.filter_cons_of_pos (by simp), List.filter_cons_of_pos (by simp), ih]
      · rw [List.filter_cons_of_neg (by simpa using hname)]
        split
        · rw [List.filter_cons_of_neg (by simpa using hname), ih]
        · exact ih
  rw [member?, hfilter, member?]

/-- Children are found where they were, and stripped. -/
theorem decodeChildren_stripMembers {kind : Option String} (hkind : isModelled kind "children")
    {members : List (String × Json)} (h : ∀ m ∈ members, decodeArray (stripArray m.2) = decodeArray m.2) :
    decodeChildren (stripMembers kind members) = decodeChildren members := by
  induction members with
  | nil => rw [stripMembers]
  | cons m members ih =>
    obtain ⟨key, value⟩ := m
    obtain ⟨hvalue, hmembers⟩ := List.forall_mem_cons.mp h
    rw [stripMembers, decodeChildren]
    by_cases hkey : key = "children"
    · subst hkey
      rw [if_pos hkind, if_pos rfl, if_pos rfl, decodeChildren, if_pos rfl]
      exact hvalue
    · rw [if_neg hkey, if_neg hkey, ← ih hmembers]
      split
      · rw [decodeChildren, if_neg hkey]
      · rfl

theorem decodeItems_map_strip {items : List Json} (h : ∀ item ∈ items, decode (strip item) = decode item) :
    decodeItems (items.map strip) = decodeItems items := by
  induction items with
  | nil => rw [List.map_nil]
  | cons item items ih =>
    obtain ⟨hitem, hitems⟩ := List.forall_mem_cons.mp h
    rw [List.map_cons, decodeItems, hitem, ih hitems, decodeItems]

/-- The only member with a key is the first one. -/
theorem find?_of_member? {members : List (String × Json)} {key : String} {value : Json}
    (h : member? members key = .ok (some value)) :
    ∃ name, members.find? (fun m => m.1 == key) = some (name, value) := by
  rw [← List.head?_filter]
  rw [member?] at h
  cases hfilter : members.filter fun m => m.1 == key with
  | nil => rw [hfilter] at h; cases h
  | cons m more =>
    cases more with
    | nil =>
      rw [hfilter] at h
      cases h
      exact ⟨m.1, rfl⟩
    | cons m' more => rw [hfilter] at h; cases h

/-- The kind that a node is read as is the one that its members name. -/
theorem kind?_of_required {members : List (String × Json)} {kind : String}
    (h : (Record.named members).required 0 "type" asText = .ok kind) : kind? members = some kind := by
  obtain ⟨found, hfound, hkind⟩ := exists_of_bind_eq_ok h
  cases found with
  | none => cases hkind
  | some value =>
    obtain ⟨name, hfirst⟩ := find?_of_member? hfound
    rw [kind?, hfirst]
    have htext : asText value = .ok kind := hkind
    cases value with
    | text name => cases htext; rfl
    | _ => cases htext

theorem isModelled_layer {kind : Option String} {key : String} (h : key ∈ Layer.keys) : isModelled kind key := by
  simp [isModelled, h]

theorem isModelled_kind {kind key : String} (h : key ∈ kindKeys kind) : isModelled (some kind) key := by
  simp [isModelled, h]

/-- A node is read as before if its children are. -/
theorem decode_strip_object {members : List (String × Json)}
    (h : ∀ m ∈ members, decodeArray (stripArray m.2) = decodeArray m.2) :
    decode (strip (.object members)) = decode (.object members) := by
  have hlayer : Layer.decode (stripMembers (kind? members) members) = Layer.decode members :=
    Layer.decode_congr fun key hkey =>
      member?_stripMembers (isModelled_layer hkey) (fun heq => absurd (heq ▸ hkey) (by decide)) members
  have htype : (Record.named (stripMembers (kind? members) members)).required 0 "type" asText =
      (Record.named members).required 0 "type" asText := by
    rw [Record.required, Record.field?, member?_stripMembers (by simp [isModelled]) (by decide)]
    rfl
  rw [strip, decode, decode, hlayer, htype]
  -- Stripping went by the kind that the members name, which is the one that was read if any was.
  congr 1
  funext layer
  cases hkind : (Record.named members).required 0 "type" asText with
  | error e => rfl
  | ok kind =>
    rw [ok_bind, ok_bind, kind?_of_required hkind]
    exact ofKind_congr layer
      (fun key hkey hne => member?_stripMembers (isModelled_kind hkey) hne members)
      fun hchildren => decodeChildren_stripMembers (isModelled_kind hchildren) h

theorem decode_strip_of_parts (j : Json) :
    decode (strip j) = decode j ∧ decodeArray (stripArray j) = decodeArray j := by
  induction j using induction_on_parts with
  | step j ih =>
    cases j with
    | object members =>
      refine ⟨decode_strip_object fun m hm => (ih m.2 ?_).2, rfl⟩
      exact List.mem_map.mpr ⟨m, hm, rfl⟩
    | array items =>
      refine ⟨rfl, ?_⟩
      rw [stripArray, stripItems_eq_map, decodeArray, decodeArray]
      exact decodeItems_map_strip fun item hitem => (ih item hitem).1
    | _ => exact ⟨rfl, rfl⟩

/-- **Decoding looks only at modelled keys.** A value is read like its stripped form, to the same node or with the
same error, so whatever the members held that are taken away. Values that are stripped to one form, and so differ in
such members only, are read alike. -/
theorem decode_strip (j : Json) :
    decode (strip j) = decode j ∧ ∀ other : Json, strip other = strip j → decode other = decode j := by
  have hstrip (j : Json) : decode (strip j) = decode j := (decode_strip_of_parts j).1
  refine ⟨hstrip j, fun other hother => ?_⟩
  rw [← hstrip other, hother, hstrip j]

/-- A group keeps its children and a rectangle does not, and it is the other way round with fills. -/
example :
    strip (.object [("type", .text "GROUP"), ("fills", .null), ("children", .array
      [.object [("type", .text "RECTANGLE"), ("fills", .array []), ("children", .null)]])]) =
    .object [("type", .text "GROUP"), ("children", .array
      [.object [("type", .text "RECTANGLE"), ("fills", .array [])]])] := by
  rfl

end SceneNode

end Handoff
