/-
# Handoff.Settings.Entries — keyed values in a fixed order

Entries keep the order in which their keys were first put: a new key goes to the end, and a new value for
a key that is already there takes the place of the old one.
-/

import Handoff.Json.Value

namespace Handoff.Settings

/-- Keys with their values. -/
abbrev Entries := List (String × Json)

namespace Entries

/-- The value of a key. -/
def get? (entries : Entries) (key : String) : Option Json :=
  entries.lookup key

/-- Gives a key a value. -/
def put (entries : Entries) (key : String) (value : Json) : Entries :=
  match entries with
  | [] => [(key, value)]
  | entry :: rest => if entry.1 == key then (key, value) :: rest else entry :: put rest key value

/-- The keys in order. -/
def keys (entries : Entries) : List String :=
  entries.map (·.1)

/-! ## What putting does -/

@[simp]
theorem get?_put_self (entries : Entries) (key : String) (value : Json) :
    (entries.put key value).get? key = some value := by
  induction entries with
  | nil => simp [put, get?]
  | cons entry rest ih =>
    obtain ⟨k, v⟩ := entry
    by_cases h : k = key
    · simp [put, get?, h]
    · have hne : (key == k) = false := by simpa using fun e => h e.symm
      simpa [put, get?, h, List.lookup_cons, hne] using ih

/-- Putting a key changes no other. -/
theorem get?_put_of_ne (entries : Entries) {key other : String} (value : Json) (h : other ≠ key) :
    (entries.put key value).get? other = entries.get? other := by
  have hne : (other == key) = false := by simpa using h
  induction entries with
  | nil => simp [put, get?, List.lookup_cons, hne]
  | cons entry rest ih =>
    obtain ⟨k, v⟩ := entry
    by_cases hk : k = key
    · simp [put, get?, hk, List.lookup_cons, hne]
    · have hput : put ((k, v) :: rest) key value = (k, v) :: put rest key value := by simp [put, hk]
      rw [hput]
      exact congrArg (fun r => match other == k with | true => some v | false => r) ih

/-- A key that is already there keeps its place; a new one goes to the end. -/
theorem keys_put (entries : Entries) (key : String) (value : Json) :
    (entries.put key value).keys =
      if key ∈ entries.keys then entries.keys else entries.keys ++ [key] := by
  induction entries with
  | nil => simp [put, keys]
  | cons entry rest ih =>
    by_cases h : entry.1 = key
    · simp [put, keys, h]
    · have hne : key ≠ entry.1 := fun e => h e.symm
      simp only [keys] at ih
      by_cases hm : key ∈ rest.map (·.1) <;> simp_all [put, keys]

end Entries

end Handoff.Settings
