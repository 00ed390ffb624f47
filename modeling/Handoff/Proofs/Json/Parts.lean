/-
# Handoff.Proofs.Json.Parts — values and their parts

The functions on values recurse by turns through values, items and members. Here what they say of a container
is said by its parts, whether these are items or the values of members, and one induction goes from the parts to
the value. Reading and printing bound two things about a value, how deep it is nested and which numbers it
holds; `FitsIn` is both, and closed under going to the parts and back.
-/

import Handoff.Json.Value

namespace Handoff.Json

/-! ## Parts -/

/-- The values that a container holds. -/
def parts : Json → List Json
  | .array items => items
  | .object members => members.map (·.2)
  | _ => []

/-- Induction from the parts of a value to the value. -/
theorem induction_on_parts {P : Json → Prop} (step : ∀ v, (∀ p ∈ v.parts, P p) → P v) (v : Json) : P v :=
  @Json.rec P (fun items => ∀ item ∈ items, P item) (fun members => ∀ m ∈ members, P m.2) (fun m => P m.2)
    (step _ (List.forall_mem_nil _)) (fun _ => step _ (List.forall_mem_nil _))
    (fun _ => step _ (List.forall_mem_nil _)) (fun _ => step _ (List.forall_mem_nil _))
    (fun items => step (.array items))
    (fun members hmembers => step (.object members) (List.forall_mem_map.mpr hmembers))
    (List.forall_mem_nil _) (fun _ _ hitem hitems => List.forall_mem_cons.mpr ⟨hitem, hitems⟩)
    (List.forall_mem_nil _) (fun _ _ hm hmembers => List.forall_mem_cons.mpr ⟨hm, hmembers⟩)
    (fun _ _ hvalue => hvalue) v

/-- A value is nested one level deeper than its parts. -/
theorem depth_le_succ_iff {v : Json} {n : Nat} : v.depth ≤ n + 1 ↔ ∀ p ∈ v.parts, p.depth ≤ n := by
  cases v with
  | null | bool | number | text => simp [depth, parts]
  | array items =>
    rw [depth, Nat.add_comm, Nat.succ_le_succ_iff, parts]
    induction items with
    | nil => simp [depthOfItems]
    | cons item items ih => rw [depthOfItems, Nat.max_le, List.forall_mem_cons, ih]
  | object members =>
    rw [depth, Nat.add_comm, Nat.succ_le_succ_iff, parts]
    induction members with
    | nil => simp [depthOfMembers]
    | cons m members ih => rw [depthOfMembers, Nat.max_le, List.map_cons, List.forall_mem_cons, ih]

theorem depth_lt_of_mem_parts {v p : Json} (h : p ∈ v.parts) : p.depth < v.depth := by
  have hpos : 0 < v.depth := by
    cases v with
    | null | bool | number | text => cases h
    | array items => rw [depth]; omega
    | object members => rw [depth]; omega
  have hle : v.depth ≤ (v.depth - 1) + 1 := by omega
  have hpart := depth_le_succ_iff.mp hle p h
  omega

mutual

/-- The numbers that a value holds, at every depth. -/
def numbers : Json → List Number
  | .number value => [value]
  | .array items => numbersOfItems items
  | .object members => numbersOfMembers members
  | _ => []

def numbersOfItems : List Json → List Number
  | [] => []
  | item :: items => item.numbers ++ numbersOfItems items

def numbersOfMembers : List (String × Json) → List Number
  | [] => []
  | (_, value) :: members => value.numbers ++ numbersOfMembers members

end

theorem mem_numbers_iff {v : Json} {k : Number} :
    k ∈ v.numbers ↔ v = .number k ∨ ∃ p ∈ v.parts, k ∈ p.numbers := by
  cases v with
  | null | bool | text => simp [numbers, parts]
  | number value => simp [numbers, parts, eq_comm]
  | array items =>
    rw [numbers, parts]
    induction items with
    | nil => simp [numbersOfItems]
    | cons item items ih => simpa [numbersOfItems] using or_congr_right (by simpa using ih)
  | object members =>
    rw [numbers, parts]
    induction members with
    | nil => simp [numbersOfMembers]
    | cons m members ih => simpa [numbersOfMembers] using or_congr_right (by simpa using ih)

theorem mem_numbers_of_mem_parts {v p : Json} {k : Number} (hp : p ∈ v.parts) (hk : k ∈ p.numbers) :
    k ∈ v.numbers :=
  mem_numbers_iff.mpr (.inr ⟨p, hp, hk⟩)

/-- A value with at most this many containers inside each other, and with numbers of one kind only. -/
structure FitsIn (P : Number → Prop) (n : Nat) (v : Json) : Prop where
  depth : v.depth ≤ n
  numbers : ∀ k ∈ v.numbers, P k

section FitsIn

variable {P Q : Number → Prop} {n : Nat} {v : Json}

/-- A container fits if its parts fit one level deeper. -/
theorem fitsIn_of_parts (hcontainer : ∀ k, v ≠ .number k) (h : ∀ p ∈ v.parts, FitsIn P n p) :
    FitsIn P (n + 1) v := by
  refine ⟨depth_le_succ_iff.mpr fun p hp => (h p hp).depth, fun k hk => ?_⟩
  rcases mem_numbers_iff.mp hk with heq | ⟨p, hp, hk⟩
  · exact absurd heq (hcontainer k)
  · exact (h p hp).numbers k hk

theorem FitsIn.part (h : FitsIn P (n + 1) v) {p : Json} (hp : p ∈ v.parts) : FitsIn P n p :=
  ⟨depth_le_succ_iff.mp h.depth p hp, fun k hk => h.numbers k (mem_numbers_of_mem_parts hp hk)⟩

theorem FitsIn.imp (h : FitsIn P n v) (himp : ∀ k ∈ v.numbers, P k → Q k) : FitsIn Q n v :=
  ⟨h.depth, fun k hk => himp k hk (h.numbers k hk)⟩

theorem fitsIn_text (s : String) : FitsIn P n (.text s) :=
  ⟨Nat.zero_le n, by simp [numbers]⟩

theorem fitsIn_bool (b : Bool) : FitsIn P n (.bool b) :=
  ⟨Nat.zero_le n, by simp [numbers]⟩

theorem fitsIn_null : FitsIn P n .null :=
  ⟨Nat.zero_le n, by simp [numbers]⟩

theorem fitsIn_number {k : Number} (h : P k) : FitsIn P n (.number k) :=
  ⟨Nat.zero_le n, by simpa [numbers] using h⟩

end FitsIn

end Handoff.Json
