/-
# Handoff.Proofs.Json.Canonical — the canonical form of a value

Sorting keeps, of several members with one key, the last. The canonical form drops members and moves them, and
puts nothing in: its parts are canonical forms of parts, so it is nested no deeper than the value and holds no
other numbers. It is its own canonical form.
-/

import Handoff.Proofs.Json.Parts

namespace Handoff.Json

/-! ## Sorted members -/

/-- Keys in order. -/
def Sorted (members : List (String × β)) : Prop :=
  (members.map (·.1)).Pairwise (· < ·)

theorem sorted_cons {m : String × β} {members : List (String × β)} :
    Sorted (m :: members) ↔ (∀ n ∈ members, m.1 < n.1) ∧ Sorted members := by
  rw [Sorted, List.map_cons, List.pairwise_cons, List.forall_mem_map]
  rfl

theorem Sorted.nodup {members : List (String × β)} (h : Sorted members) : (members.map (·.1)).Nodup :=
  List.Pairwise.imp (fun hlt => String.ne_of_lt hlt) h

theorem of_mem_insertMember {key : String} {value : β} {members : List (String × β)} {m : String × β}
    (h : m ∈ insertMember key value members) : m = (key, value) ∨ m ∈ members := by
  induction members with
  | nil => exact .inl (List.mem_singleton.mp h)
  | cons n members ih =>
    rw [insertMember] at h
    split at h
    · exact List.mem_cons.mp h
    · split at h
      · exact (List.mem_cons.mp h).imp_right (List.mem_cons_of_mem n)
      · rcases List.mem_cons.mp h with rfl | h
        · exact .inr List.mem_cons_self
        · exact (ih h).imp_right (List.mem_cons_of_mem n)

theorem Sorted.insertMember {members : List (String × β)} (h : Sorted members) (key : String) (value : β) :
    Sorted (insertMember key value members) := by
  induction members with
  | nil => exact List.pairwise_singleton _ _
  | cons n members ih =>
    obtain ⟨hfirst, hrest⟩ := sorted_cons.mp h
    rw [Json.insertMember]
    split
    next hlt =>
      refine sorted_cons.mpr ⟨List.forall_mem_cons.mpr ⟨hlt, fun m hm => ?_⟩, h⟩
      exact String.lt_trans hlt (hfirst m hm)
    next hge =>
      split
      next heq => exact sorted_cons.mpr ⟨fun m hm => heq ▸ hfirst m hm, hrest⟩
      next hne =>
        refine sorted_cons.mpr ⟨fun m hm => ?_, ih hrest⟩
        rcases of_mem_insertMember hm with rfl | hm
        · exact Std.lt_of_le_of_ne (String.not_lt.mp hge) fun heq => hne heq.symm
        · exact hfirst m hm

theorem lookup_cons_eq_ite (m : String × β) (members : List (String × β)) (key : String) :
    (m :: members).lookup key = if key = m.1 then some m.2 else members.lookup key := by
  obtain ⟨k, a⟩ := m
  rw [List.lookup_cons]
  by_cases h : key = k
  · rw [if_pos h, beq_iff_eq.mpr h]
  · rw [if_neg h, beq_eq_false_iff_ne.mpr h]

/-- The last value that was put under a key is the one that stands there. -/
theorem lookup_insertMember (key : String) (value : β) (members : List (String × β)) (other : String) :
    (insertMember key value members).lookup other =
      if other = key then some value else members.lookup other := by
  induction members with
  | nil => exact lookup_cons_eq_ite _ _ _
  | cons m members ih =>
    rw [insertMember]
    split
    next hlt => exact lookup_cons_eq_ite _ _ _
    next hge =>
      split
      next heq => grind [lookup_cons_eq_ite]
      next hne => grind [lookup_cons_eq_ite]

section Sorting

/- Sorting is a fold that puts one member after the other into those that are sorted already. -/

variable (members : List (String × β))

theorem sorted_sortMembers : Sorted (sortMembers members) := by
  suffices hfold : ∀ done, Sorted done →
      Sorted (members.foldl (fun sorted m => insertMember m.1 m.2 sorted) done) from hfold [] .nil
  induction members with
  | nil => exact fun _ hdone => hdone
  | cons m members ih => exact fun done hdone => ih _ (hdone.insertMember m.1 m.2)

variable {members}

theorem of_mem_sortMembers {m : String × β} (h : m ∈ sortMembers members) : m ∈ members := by
  suffices hfold : ∀ done, m ∈ members.foldl (fun sorted m => insertMember m.1 m.2 sorted) done →
      m ∈ done ∨ m ∈ members from (hfold [] h).resolve_left List.not_mem_nil
  clear h
  induction members with
  | nil => exact fun _ hmem => .inl hmem
  | cons n members ih =>
    intro done hmem
    rcases ih (insertMember n.1 n.2 done) hmem with hdone | hrest
    · rcases of_mem_insertMember hdone with rfl | hdone
      · exact .inr List.mem_cons_self
      · exact .inl hdone
    · exact .inr (List.mem_cons_of_mem n hrest)

/-- Sorting leaves every key the last of its values. -/
theorem lookup_sortMembers (members : List (String × β)) (key : String) :
    (sortMembers members).lookup key = members.reverse.lookup key := by
  suffices hfold : ∀ done : List (String × β),
      (members.foldl (fun sorted m => insertMember m.1 m.2 sorted) done).lookup key =
        (members.reverse.lookup key).or (done.lookup key) by
    rw [sortMembers, hfold [], List.lookup_nil, Option.or_none]
  induction members with
  | nil => exact fun _ => rfl
  | cons m members ih =>
    intro done
    rw [List.foldl_cons, ih, lookup_insertMember, List.reverse_cons, List.lookup_append,
      lookup_cons_eq_ite m [], List.lookup_nil, Option.or_assoc]
    by_cases hkey : key = m.1
    · rw [if_pos hkey, if_pos hkey, Option.some_or]
    · rw [if_neg hkey, if_neg hkey, Option.none_or]

/-- Where keys are distinct, the last value of a key is its only one. -/
theorem lookup_reverse (distinct : (members.map (·.1)).Nodup) (key : String) :
    members.reverse.lookup key = members.lookup key := by
  induction members with
  | nil => rfl
  | cons m members ih =>
    rw [List.map_cons, List.nodup_cons] at distinct
    rw [List.reverse_cons, List.lookup_append, ih distinct.2, lookup_cons_eq_ite, lookup_cons_eq_ite]
    by_cases hkey : key = m.1
    · have hnone : members.lookup key = none := by
        refine List.lookup_eq_none_iff.mpr fun n hn => bne_iff_ne.mpr ?_
        rintro rfl
        exact distinct.1 (hkey ▸ List.mem_map_of_mem hn)
      rw [if_pos hkey, if_pos hkey, hnone, Option.none_or]
    · rw [if_neg hkey, if_neg hkey, List.lookup_nil, Option.or_none]

end Sorting

/-- A key behind all others is put at the end. -/
theorem insertMember_of_lt {members : List (String × β)} {key : String}
    (h : ∀ m ∈ members, m.1 < key) (value : β) :
    insertMember key value members = members ++ [(key, value)] := by
  induction members with
  | nil => rfl
  | cons m members ih =>
    have hlt : m.1 < key := h m List.mem_cons_self
    rw [insertMember, if_neg (String.lt_asymm hlt), if_neg (String.ne_of_lt hlt).symm,
      ih fun n hn => h n (List.mem_cons_of_mem m hn), List.cons_append]

/-- Members whose keys are in order are left as they are. -/
theorem sortMembers_eq_self {members : List (String × β)} (h : Sorted members) :
    sortMembers members = members := by
  -- Sorting goes from left to right: what was sorted so far stands in front of the rest.
  suffices hfold : ∀ done rest : List (String × β), Sorted (done ++ rest) →
      rest.foldl (fun sorted m => insertMember m.1 m.2 sorted) done = done ++ rest from
    hfold [] members h
  intro done rest
  induction rest generalizing done with
  | nil => intro _; rw [List.foldl_nil, List.append_nil]
  | cons m rest ih =>
    intro hsorted
    have hlast : ∀ n ∈ done, n.1 < m.1 := by
      intro n hn
      rw [Sorted, List.map_append, List.pairwise_append] at hsorted
      exact hsorted.2.2 n.1 (List.mem_map_of_mem hn) m.1 (List.mem_map_of_mem List.mem_cons_self)
    rw [List.foldl_cons, insertMember_of_lt hlast, ih _ (by rwa [List.append_assoc]),
      List.append_assoc, List.singleton_append]

/-! ## The canonical form -/

theorem canonical_array (items : List Json) : (array items).canonical = array (items.map canonical) := by
  rw [canonical]
  congr 1
  induction items with
  | nil => rw [canonicalItems, List.map_nil]
  | cons item items ih => rw [canonicalItems, List.map_cons, ih]

theorem canonicalMembers_eq_map (members : List (String × Json)) :
    canonicalMembers members = members.map fun m => (m.1, m.2.canonical) := by
  induction members with
  | nil => rw [canonicalMembers, List.map_nil]
  | cons m members ih => rw [canonicalMembers, List.map_cons, ih]

theorem canonical_object (members : List (String × Json)) :
    (object members).canonical = object (sortMembers (members.map fun m => (m.1, m.2.canonical))) := by
  rw [canonical, canonicalMembers_eq_map]

/-- A member of the canonical form is a member with its value in canonical form. -/
theorem of_mem_canonicalMembers {members : List (String × Json)} {m : String × Json}
    (h : m ∈ sortMembers (members.map fun m => (m.1, m.2.canonical))) :
    ∃ n ∈ members, m = (n.1, n.2.canonical) := by
  obtain ⟨n, hn, rfl⟩ := List.mem_map.mp (of_mem_sortMembers h)
  exact ⟨n, hn, rfl⟩

theorem lookup_map_value (f : α → β) (members : List (String × α)) (key : String) :
    (members.map fun m => (m.1, f m.2)).lookup key = (members.lookup key).map f := by
  induction members with
  | nil => rfl
  | cons m members ih =>
    rw [List.map_cons, lookup_cons_eq_ite, lookup_cons_eq_ite, ih]
    by_cases hkey : key = m.1
    · rw [if_pos hkey, if_pos hkey, Option.map_some]
    · rw [if_neg hkey, if_neg hkey]

section Canonical

variable {v : Json}

/-- Its parts are the canonical forms of parts. -/
theorem of_mem_parts_canonical {p : Json} (h : p ∈ v.canonical.parts) : ∃ q ∈ v.parts, p = q.canonical := by
  cases v with
  | null | bool | number | text => simp [canonical, parts] at h
  | array items =>
    rw [canonical_array] at h
    obtain ⟨q, hq, rfl⟩ := List.mem_map.mp h
    exact ⟨q, hq, rfl⟩
  | object members =>
    rw [canonical_object] at h
    obtain ⟨m, hm, rfl⟩ := List.mem_map.mp h
    obtain ⟨n, hn, rfl⟩ := of_mem_canonicalMembers hm
    exact ⟨n.2, List.mem_map_of_mem hn, rfl⟩

/-- A scalar has only one form. -/
theorem canonical_of_depth_eq_zero (h : v.depth = 0) : v.canonical = v := by
  cases v with
  | null | bool | number | text => rw [canonical] <;> simp
  | array items => rw [depth] at h; omega
  | object members => rw [depth] at h; omega

/-- The canonical form is its own canonical form. -/
theorem canonical_canonical (v : Json) : v.canonical.canonical = v.canonical := by
  induction v using induction_on_parts with
  | step v ih =>
    cases v with
    | null | bool | number | text => simp only [canonical]
    | array items =>
      rw [canonical_array, canonical_array, List.map_map]
      exact congrArg array (List.map_congr_left ih)
    | object members =>
      rw [canonical_object, canonical_object]
      have hvalues : ∀ m ∈ sortMembers (members.map fun m => (m.1, m.2.canonical)),
          (m.1, m.2.canonical) = m := by
        intro m hm
        obtain ⟨n, hn, rfl⟩ := of_mem_canonicalMembers hm
        rw [ih n.2 (List.mem_map_of_mem hn)]
      -- The keys are in order already, and the values do not change a second time.
      rw [List.map_congr_left hvalues, List.map_id', sortMembers_eq_self (sorted_sortMembers _)]

/-- It is nested no deeper. -/
theorem depth_canonical_le (v : Json) : v.canonical.depth ≤ v.depth := by
  induction v using induction_on_parts with
  | step v ih =>
    by_cases hscalar : v.depth = 0
    · exact Nat.le_of_eq (congrArg depth (canonical_of_depth_eq_zero hscalar))
    · obtain ⟨n, hn⟩ := Nat.exists_eq_succ_of_ne_zero hscalar
      rw [hn]
      apply depth_le_succ_iff.mpr
      intro p hp
      obtain ⟨q, hq, rfl⟩ := of_mem_parts_canonical hp
      exact Nat.le_trans (ih q hq) (depth_le_succ_iff.mp (Nat.le_of_eq hn) q hq)

/-- It holds no other numbers. -/
theorem numbers_canonical_subset (v : Json) : v.canonical.numbers ⊆ v.numbers := by
  induction v using induction_on_parts with
  | step v ih =>
    intro k hk
    by_cases hscalar : v.depth = 0
    · rwa [canonical_of_depth_eq_zero hscalar] at hk
    · rcases mem_numbers_iff.mp hk with heq | ⟨p, hp, hk⟩
      · cases v <;> simp [canonical, depth] at heq hscalar
      · obtain ⟨q, hq, rfl⟩ := of_mem_parts_canonical hp
        exact mem_numbers_of_mem_parts hq (ih q hq hk)

theorem FitsIn.canonical {P : Number → Prop} {n : Nat} (h : FitsIn P n v) : FitsIn P n v.canonical :=
  ⟨Nat.le_trans (depth_canonical_le v) h.depth, fun k hk => h.numbers k (numbers_canonical_subset v hk)⟩

end Canonical

end Handoff.Json
