/-
# Handoff.Proofs.Json.Codec — what is written is read back

The readers of `Handoff.Json.Record` take a value apart; the writers beside them put one together. This
module proves, piece by piece, that a reader undoes its writer: names, options, lists, doubles and the
members of a record. A record is never compared as a whole. What counts is `Holds`: that every member
which was written is the only one with its key. Reading a field then needs that one fact and nothing
about the members around it, so a record stays readable when others are flattened into the same object.
-/

import Handoff.Json.Record

namespace Handoff.Json

/-! ## Sequencing -/

@[simp]
theorem ok_bind (a : α) (f : α → Except ε β) : (Except.ok a >>= f) = f a :=
  rfl

@[simp]
theorem decoded_pure (a : α) : (pure a : Decoded α) = .ok a :=
  rfl

/-- A sequence that succeeds has succeeded in both of its parts. -/
theorem exists_of_bind_eq_ok {x : Except ε α} {f : α → Except ε β} {b : β} (h : (x >>= f) = .ok b) :
    ∃ a, x = .ok a ∧ f a = .ok b := by
  cases x with
  | error e => cases h
  | ok a => exact ⟨a, rfl, h⟩

theorem bind_eq_ok_iff {x : Except ε α} {f : α → Except ε β} {b : β} :
    (x >>= f) = .ok b ↔ ∃ a, x = .ok a ∧ f a = .ok b := by
  refine ⟨exists_of_bind_eq_ok, ?_⟩
  rintro ⟨a, rfl, h⟩
  exact h

theorem mapError_eq_ok_iff {x : Except ε α} {f : ε → ζ} {a : α} : x.mapError f = .ok a ↔ x = .ok a := by
  cases x with
  | error e => constructor <;> intro h <;> cases h
  | ok b => constructor <;> intro h <;> cases h <;> rfl

theorem exists_of_map_eq_ok {x : Except ε α} {f : α → β} {b : β} (h : x.map f = .ok b) :
    ∃ a, x = .ok a ∧ f a = b := by
  cases x with
  | error e => cases h
  | ok a => exact ⟨a, rfl, Except.ok.inj h⟩

/-- Every result of a list comes from one of its items. -/
theorem exists_of_mem_of_mapM_eq_ok {f : α → Except ε β} {as : List α} {bs : List β}
    (h : as.mapM f = .ok bs) {b : β} (hb : b ∈ bs) : ∃ a ∈ as, f a = .ok b := by
  induction as generalizing bs with
  | nil => cases h; cases hb
  | cons a as ih =>
    rw [List.mapM_cons] at h
    obtain ⟨first, hfirst, h⟩ := exists_of_bind_eq_ok h
    obtain ⟨rest, hrest, h⟩ := exists_of_bind_eq_ok h
    cases h
    rcases List.mem_cons.mp hb with rfl | hb
    · exact ⟨a, List.mem_cons_self, hfirst⟩
    · obtain ⟨a', ha', heq⟩ := ih hrest hb
      exact ⟨a', List.mem_cons_of_mem a ha', heq⟩

/-- A list is read if each of its items is. -/
theorem mapM_eq_ok_iff {f : α → Except ε β} {as : List α} {bs : List β} :
    as.mapM f = .ok bs ↔ as.map f = bs.map .ok := by
  induction as generalizing bs with
  | nil => cases bs <;> simp [pure, Except.pure]
  | cons a as ih =>
    rw [List.mapM_cons, List.map_cons]
    constructor
    · intro h
      obtain ⟨b, hb, h⟩ := exists_of_bind_eq_ok h
      obtain ⟨bs', hbs, h⟩ := exists_of_bind_eq_ok h
      cases h
      rw [hb, ih.mp hbs, List.map_cons]
    · intro h
      cases bs with
      | nil => cases h
      | cons b bs =>
        obtain ⟨hb, hbs⟩ := List.cons.inj h
        rw [hb, ok_bind, ih.mpr hbs]
        rfl

theorem mapM_append_eq_ok {f : α → Except ε β} {as as' : List α} {bs bs' : List β}
    (h : as.mapM f = .ok bs) (h' : as'.mapM f = .ok bs') : (as ++ as').mapM f = .ok (bs ++ bs') := by
  rw [List.mapM_append, h, h']
  rfl

/-! ## Names -/

/-- A list of names that can be read back: no name stands for two choices, and every choice has a name. -/
structure NamesAll (names : List (String × α)) : Prop where
  distinct : (names.map (·.1)).Nodup
  total : ∀ a, a ∈ names.map (·.2)

/-- Where keys are distinct, the value that stands with a key is the one that a lookup finds. -/
theorem lookup_of_mem {entries : List (String × α)} (distinct : (entries.map (·.1)).Nodup) {key : String}
    {a : α} (h : (key, a) ∈ entries) : entries.lookup key = some a := by
  induction entries with
  | nil => simp at h
  | cons entry rest ih =>
    obtain ⟨k, b⟩ := entry
    simp only [List.map_cons, List.nodup_cons] at distinct
    rcases List.mem_cons.mp h with heq | hrest
    · cases heq
      exact List.lookup_cons_self
    · have hne : (key == k) = false := by
        rw [beq_eq_false_iff_ne]
        rintro rfl
        exact distinct.1 (List.mem_map_of_mem hrest)
      rw [List.lookup_cons, hne]
      exact ih distinct.2 hrest

/-- The name that is written for a choice stands for that choice. -/
theorem lookup_nameOf [DecidableEq α] {names : List (String × α)} (h : NamesAll names) (a : α) :
    names.lookup (nameOf names a) = some a := by
  obtain ⟨entry, hmem, hvalue⟩ := List.mem_map.mp (h.total a)
  have hsome : (names.find? fun entry => entry.2 = a).isSome :=
    List.find?_isSome.mpr ⟨entry, hmem, by simpa using hvalue⟩
  obtain ⟨found, hfound⟩ := Option.isSome_iff_exists.mp hsome
  have hfa : found.2 = a := by simpa using List.find?_some hfound
  have hname : nameOf names a = found.1 := by simp [nameOf, hfound]
  rw [hname]
  exact lookup_of_mem h.distinct (hfa ▸ List.mem_of_find?_eq_some hfound)

theorem asName_ofName [DecidableEq α] {names : List (String × α)} (h : NamesAll names) (a : α) :
    asName names (ofName names a) = .ok a := by
  simp [asName, ofName, lookupName, lookup_nameOf h a]

/-! ## Doubles, options and lists -/

theorem asFloat_ofFloat {x : Float} (h : x.isFinite) : asFloat (ofFloat x) = .ok x := by
  simp [ofFloat, h, asFloat, Number.toFloat]

/-- An option is read back if what it holds is, and is not written as null. -/
theorem asOption_ofOption {decode : Json → Decoded α} {encode : α → Json} {o : Option α}
    (h : ∀ a ∈ o, decode (encode a) = .ok a ∧ encode a ≠ .null) :
    asOption decode (ofOption encode o) = .ok o := by
  cases o with
  | none => rfl
  | some a =>
    obtain ⟨hread, hnull⟩ := h a rfl
    rw [ofOption, asOption, hread]
    · rfl
    · exact hnull

/-- A list is read back if each of its items is. -/
theorem asList_map {decode : Json → Decoded α} {encode : α → Json} {items : List α}
    (h : ∀ a ∈ items, decode (encode a) = .ok a) : asList decode (.array (items.map encode)) = .ok items := by
  rw [asList]
  induction items with
  | nil => rfl
  | cons a items ih =>
    rw [List.map_cons, List.mapM_cons, h a List.mem_cons_self, ok_bind,
      ih fun b hb => h b (List.mem_cons_of_mem a hb)]
    rfl

/-! ## Members -/

/-- Each of these members stands among the members of an object, and no other one there has its key. -/
def Holds (members parts : List (String × Json)) : Prop :=
  ∀ m ∈ parts, member? members m.1 = .ok (some m.2)

@[simp]
theorem holds_cons {members parts : List (String × Json)} {m : String × Json} :
    Holds members (m :: parts) ↔ member? members m.1 = .ok (some m.2) ∧ Holds members parts :=
  List.forall_mem_cons

/-- Where keys are distinct, a member is found under its key. -/
theorem member?_of_mem {members : List (String × Json)} (distinct : (members.map (·.1)).Nodup)
    {m : String × Json} (h : m ∈ members) : member? members m.1 = .ok (some m.2) := by
  have hfilter : members.filter (fun n => n.1 == m.1) = [m] := by
    induction members with
    | nil => simp at h
    | cons n rest ih =>
      simp only [List.map_cons, List.nodup_cons] at distinct
      rcases List.mem_cons.mp h with rfl | hrest
      · -- No later member has the key of the first.
        have hnone : rest.filter (fun n => n.1 == m.1) = [] := by
          rw [List.filter_eq_nil_iff]
          intro n hn hkey
          exact distinct.1 (beq_iff_eq.mp hkey ▸ List.mem_map_of_mem hn)
        rw [List.filter_cons_of_pos (by simp), hnone]
      · have hne : ¬(n.1 == m.1) = true := by
          intro hkey
          exact distinct.1 (beq_iff_eq.mp hkey ▸ List.mem_map_of_mem hrest)
        rw [List.filter_cons, if_neg hne]
        exact ih distinct.2 hrest
  rw [member?, hfilter]

/-- An object with distinct keys holds every part of itself. -/
theorem holds_of_subset {members parts : List (String × Json)} (distinct : (members.map (·.1)).Nodup)
    (h : parts ⊆ members) : Holds members parts :=
  fun _ hm => member?_of_mem distinct (h hm)

/-- A required field is read from the member that is held for it. -/
theorem required_of_member {members : List (String × Json)} {name : String} {value : Json}
    (h : member? members name = .ok (some value)) (place : Nat) (decode : Json → Decoded α) :
    (Record.named members).required place name decode = decode value := by
  simp [Record.required, Record.field?, h]

/-- So is an optional one, whatever stands for its absence. -/
theorem optional_of_member {members : List (String × Json)} {name : String} {value : Json}
    (h : member? members name = .ok (some value)) (place : Nat) (absent : α)
    (decode : Json → Decoded α) :
    (Record.named members).optional place name absent decode = decode value := by
  simp [Record.optional, Record.field?, h]

end Handoff.Json
