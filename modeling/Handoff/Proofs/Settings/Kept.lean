/-
# Handoff.Proofs.Settings.Kept — settings that are kept come back

A setting passes through two changes of form before it is used again: it is written as a value, and the
store puts that value into canonical form. Names are texts, which have only one form, and the writer of
declared components already sorts its keys; so all three settings that are ever kept are read back as
they were. What a store in memory keeps under one key does not depend on what is set under another.
-/

import Handoff.Proofs.Json.Canonical
import Handoff.Proofs.Json.Codec
import Handoff.Settings.Component
import Handoff.Settings.Config

namespace Handoff

open Json

/-! ## Names -/

theorem LengthUnit.names_all : NamesAll LengthUnit.names :=
  ⟨by decide, by intro a; cases a <;> decide⟩

theorem Stylesheet.Dialect.names_all : NamesAll Stylesheet.Dialect.names :=
  ⟨by decide, by intro a; cases a <;> decide⟩

/-- A name has no second form. -/
@[simp]
theorem Json.canonical_ofName [DecidableEq α] (names : List (String × α)) (a : α) :
    (ofName names a).canonical = ofName names a := by
  rw [ofName, canonical]
  all_goals simp

/-! ## Declared components -/

theorem ComponentProp.decode_encode (p : ComponentProp) :
    ComponentProp.decode p.encode = .ok p := by
  simp [decode, encode, asRecord, Record.required, Record.optional, Record.field?, member?, asText,
    asBool]

theorem UserComponent.decode_encode (c : UserComponent) :
    UserComponent.decode c.encode = .ok c := by
  have hprops := asList_map fun p (_ : p ∈ c.props) => ComponentProp.decode_encode p
  simp [decode, encode, asRecord, Record.required, Record.optional, Record.field?, member?, asText,
    hprops]

theorem UserComponent.decodeList_encodeList (components : List UserComponent) :
    decodeList (encodeList components) = .ok components :=
  asList_map fun c _ => c.decode_encode

/-! ## Their canonical form -/

theorem ComponentProp.canonical_encode (p : ComponentProp) : p.encode.canonical = p.encode := by
  have hsorted : ["isRawExpression", "name", "value"].Pairwise (· < ·) := by decide
  simp only [encode, canonical, canonicalMembers]
  exact congrArg object (sortMembers_eq_self hsorted)

theorem UserComponent.canonical_encode (c : UserComponent) : c.encode.canonical = c.encode := by
  have hsorted : ["name", "props"].Pairwise (· < ·) := by decide
  have hprops : (array (c.props.map ComponentProp.encode)).canonical =
      array (c.props.map ComponentProp.encode) := by
    rw [canonical_array, List.map_map]
    exact congrArg array (List.map_congr_left fun p _ => p.canonical_encode)
  simp only [encode, canonical_object, List.map_cons, List.map_nil, hprops]
  rw [canonical]
  · exact congrArg object (sortMembers_eq_self hsorted)
  all_goals simp

@[simp]
theorem UserComponent.canonical_encodeList (components : List UserComponent) :
    (encodeList components).canonical = encodeList components := by
  rw [encodeList, canonical_array, List.map_map]
  exact congrArg array (List.map_congr_left fun c _ => c.canonical_encode)

namespace Settings

/-! ## A store in memory -/

/-- What a store in memory keeps under a key, as far as it fits the type. -/
def MemoryStore.kept (store : MemoryStore) (key : String) (decode : Json → Decoded α) : Option α :=
  (store.entries.get? key).bind fun j => (decode j).toOption

theorem load_memory (store : MemoryStore) (key : String) (decode : Json → Decoded α) :
    load store key decode = .ok (store.kept key decode) :=
  rfl

theorem MemoryStore.kept_set_self (store : MemoryStore) (key : String) {value : Json}
    {decode : Json → Decoded α} {a : α} (h : decode value.canonical = .ok a) :
    MemoryStore.kept (Store.set store key value).1 key decode = some a := by
  simp [kept, Store.set, h, Except.toOption]

theorem MemoryStore.kept_set_of_ne (store : MemoryStore) {key other : String} (value : Json)
    (h : other ≠ key) (decode : Json → Decoded α) :
    MemoryStore.kept (Store.set store key value).1 other decode = store.kept other decode := by
  simp [kept, Store.set, Entries.get?_put_of_ne _ _ h]

/-! ## Resolution -/

/-- A choice that nobody asked for is the one that is kept, and a missing one is the default. -/
theorem choose_memory (store : MemoryStore) (key : String) (asked : Option α)
    (decode : Json → Decoded α) (fallback : α) :
    choose store key asked decode fallback =
      .ok (asked.getD ((store.kept key decode).getD fallback)) := by
  cases asked <;> rfl

/-- Over a store in memory every request has a configuration. -/
theorem resolve_memory (store : MemoryStore) (overrides : Overrides) :
    overrides.resolve store = .ok {
      unit := overrides.unit.getD ((store.kept unitKey (asName LengthUnit.names)).getD .px)
      stylesheet := overrides.stylesheet.getD
        ((store.kept stylesheetKey (asName Stylesheet.Dialect.names)).getD .flat)
      markup := overrides.markup
      detection := overrides.detection.getD .identify } := by
  rw [Overrides.resolve, choose_memory, choose_memory]
  rfl

end Settings

end Handoff
