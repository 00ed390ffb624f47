/-
# Handoff.Proofs.Session.Generation — generating whatever is kept

A store in memory may hold anything under any key. A generation looks up three keys, and a value that does not
fit its key counts as absent; so a generation ends as if the store had been purged of everything that is no
setting. How it ends is decided by the selection: one visible node, a hidden one, or another number of nodes. It
never fails because of what is kept, and nothing but the last configuration changes.
-/

import Handoff.Proofs.Session.Preferences

namespace Handoff

open Json Settings

namespace Settings

/-! ## What is no setting -/

/-- Whether a value is one for the setting that is kept under a key. -/
def fitsSetting (key : String) (value : Json) : Bool :=
  if key = unitKey then (asName LengthUnit.names value).toOption.isSome
  else if key = stylesheetKey then (asName Stylesheet.Dialect.names value).toOption.isSome
  else if key = componentsKey then (UserComponent.decodeList value).toOption.isSome
  else false

/-- The store without what is no setting: a key stays if it is that of a setting and its value fits. -/
def MemoryStore.purged (store : MemoryStore) : MemoryStore :=
  ⟨store.entries.filter fun entry => (store.entries.get? entry.1).any (fitsSetting entry.1)⟩

theorem Entries.get?_filter (entries : Entries) (keeps : String → Bool) (key : String) :
    Entries.get? (entries.filter fun entry => keeps entry.1) key =
      if keeps key then entries.get? key else none := by
  induction entries with
  | nil => simp [get?]
  | cons entry entries ih =>
    obtain ⟨other, value⟩ := entry
    by_cases hkey : key = other
    · subst hkey
      by_cases hkeeps : keeps key
      · simp [hkeeps, get?]
      · simp only [hkeeps, Bool.false_eq_true, if_false] at ih ⊢
        rw [List.filter_cons_of_neg (by simpa using hkeeps), ih]
    · have hne : (key == other) = false := by simpa using hkey
      -- An entry of another key is passed over, so it makes no difference whether it stays.
      have hskip (rest : Entries) : Entries.get? ((other, value) :: rest) key = rest.get? key := by
        rw [get?, List.lookup_cons, hne, get?]
      rw [hskip, List.filter_cons]
      split
      · rw [hskip, ih]
      · exact ih

/-- Looking up a key of the purged store gives its value if that is one for a setting. -/
theorem MemoryStore.get?_purged (store : MemoryStore) (key : String) :
    store.purged.entries.get? key = (store.entries.get? key).filter (fitsSetting key) := by
  have hget := store.entries.get?_filter (fun key => (store.entries.get? key).any (fitsSetting key)) key
  rw [purged, hget]
  cases store.entries.get? key with
  | none => rfl
  | some value => rw [Option.any_some, Option.filter_some]

/-- A setting is read from the purged store as it was. -/
theorem MemoryStore.kept_purged {decode : Json → Decoded α} {key : String}
    (h : ∀ value, fitsSetting key value = (decode value).toOption.isSome) (store : MemoryStore) :
    store.purged.kept key decode = store.kept key decode := by
  rw [kept, kept, get?_purged]
  cases store.entries.get? key with
  | none => rfl
  | some value =>
    rw [Option.filter_some, h, Option.bind_some]
    cases hvalue : (decode value).toOption with
    | none => rfl
    | some a => exact hvalue

end Settings

namespace Session

/-- The session over the purged store. -/
def purged (s : Session MemoryStore) : Session MemoryStore :=
  { s with store := s.store.purged }

/-- The settings in force are read from settings only. -/
theorem preferences_purged (s : Session MemoryStore) : s.purged.preferences = s.preferences := by
  have hunit : s.store.purged.kept unitKey (asName LengthUnit.names) = s.store.kept unitKey _ :=
    MemoryStore.kept_purged (fun _ => rfl) s.store
  have hstylesheet : s.store.purged.kept stylesheetKey (asName Stylesheet.Dialect.names) =
      s.store.kept stylesheetKey _ :=
    MemoryStore.kept_purged (fun _ => rfl) s.store
  have hcomponents : s.store.purged.kept componentsKey UserComponent.decodeList =
      s.store.kept componentsKey _ :=
    MemoryStore.kept_purged (fun _ => rfl) s.store
  simp only [preferences, purged, hunit, hstylesheet, hcomponents]

theorem outcome_purged (s : Session MemoryStore) : s.purged.outcome = s.outcome :=
  rfl

/-! ## How a generation ends -/

/-- How a generation with a configuration ends, and what it leaves of the session: the selection decides. -/
inductive Concludes (s : Session MemoryStore) (config : Config) :
    Session MemoryStore → Except SessionError Output → Prop where
  | visible {node : SceneNode} {output : Output} :
      s.selection = [node] → node.visible → s.output? node config s.preferences.components = some output →
      Concludes s config { s with lastConfig := some config } (.ok output)
  | hidden {node : SceneNode} :
      s.selection = [node] → ¬node.visible → Concludes s config s (.error (.invisibleRoot node.name))
  | several :
      (∀ node, s.selection ≠ [node]) → Concludes s config s (.error (.invalidSelection s.selection.length))

theorem concludes_generate (s : Session MemoryStore) (asked : Overrides) :
    Concludes s (s.preferences.config asked) (s.generate asked).1 (s.generate asked).2 := by
  rw [generate_memory_fst, generate_memory_snd]
  by_cases hone : ∃ node, s.selection = [node]
  · obtain ⟨node, hsel⟩ := hone
    by_cases hv : node.visible
    · obtain ⟨output, hout⟩ := Option.isSome_iff_exists.mp
        ((s.output?_isSome node (s.preferences.config asked) s.preferences.components).trans hv)
      have houtcome : s.outcome (s.preferences.config asked) s.preferences.components = .ok output := by
        simp only [outcome, hsel, root, hout]
      rw [houtcome]
      exact .visible hsel hv hout
    · rw [outcome_of_hidden hsel hv]
      exact .hidden hsel hv
  · have hmany : ∀ node, s.selection ≠ [node] := fun node hsel => hone ⟨node, hsel⟩
    rw [outcome_of_many hmany]
    exact .several hmany

section Concludes

variable {s now : Session MemoryStore} {config : Config} {answer : Except SessionError Output}

/-- A generation succeeds exactly if one visible node is selected. -/
theorem Concludes.isOk_iff (h : Concludes s config now answer) :
    answer.isOk ↔ ∃ node, s.selection = [node] ∧ node.visible := by
  cases h with
  | visible hsel hv hout => exact ⟨fun _ => ⟨_, hsel, hv⟩, fun _ => rfl⟩
  | @hidden node hsel hv =>
    refine ⟨nofun, fun ⟨node', hsel', hv'⟩ => absurd hv' ?_⟩
    rw [hsel, List.singleton_inj] at hsel'
    rwa [← hsel']
  | several hmany => exact ⟨nofun, fun ⟨node, hsel, _⟩ => absurd hsel (hmany node)⟩

/-- However a generation ends, only the last configuration may have changed. -/
theorem Concludes.now_eq (h : Concludes s config now answer) :
    now = { s with lastConfig := if answer.isOk then some config else s.lastConfig } := by
  cases h <;> rfl

/-- What is shown was made with the configuration. -/
theorem Concludes.output (h : Concludes s config now answer) :
    ∀ output, answer = .ok output → output.unit = config.unit ∧ output.dialect = config.stylesheet := by
  rintro output rfl
  cases h with
  | visible hsel hv hout =>
    rw [output?, Option.map_eq_some_iff] at hout
    obtain ⟨t, -, rfl⟩ := hout
    exact ⟨rfl, rfl⟩

end Concludes

/-- A generation ends over the purged store as it does over the store. -/
theorem generate_purged (s : Session MemoryStore) (asked : Overrides) :
    s.purged.generate asked = ((s.generate asked).1.purged, (s.generate asked).2) := by
  refine Prod.ext ?_ ?_
  · rw [generate_memory_fst, generate_memory_fst, preferences_purged, outcome_purged]
    cases s.outcome (s.preferences.config asked) s.preferences.components <;> rfl
  · rw [generate_memory_snd, generate_memory_snd, preferences_purged, outcome_purged]

/-- **A generation ends as the selection says, whatever is kept.** It runs with the configuration that the request
is resolved to, in which everything asked for is as asked. One visible node is shown, a hidden node and any other
number of nodes are reported, and over the purged store the answer is the same. Only the last configuration
changes, and only if there is something to show. -/
theorem generate_concludes (s : Session MemoryStore) (asked : Overrides) :
    let config := s.preferences.config asked
    let now := (s.generate asked).1
    let answer := (s.generate asked).2
    (s.complete asked).resolve s.store = .ok config ∧
      (∀ unit ∈ asked.unit, config.unit = unit) ∧
      (∀ dialect ∈ asked.stylesheet, config.stylesheet = dialect) ∧
      (∀ detection ∈ asked.detection, config.detection = detection) ∧
      Concludes s config now answer ∧
      (answer.isOk ↔ ∃ node, s.selection = [node] ∧ node.visible) ∧
      (∀ output, answer = .ok output → output.unit = config.unit ∧ output.dialect = config.stylesheet) ∧
      s.purged.generate asked = (now.purged, answer) ∧
      now = { s with lastConfig := if answer.isOk then some config else s.lastConfig } := by
  intro config now answer
  have hconcludes := s.concludes_generate asked
  refine ⟨s.resolve_complete asked, ?_, ?_, ?_, hconcludes, hconcludes.isOk_iff, hconcludes.output,
    s.generate_purged asked, hconcludes.now_eq⟩
  · intro unit hasked
    show asked.unit.getD _ = unit
    rw [Option.mem_def.mp hasked, Option.getD_some]
  · intro dialect hasked
    show asked.stylesheet.getD _ = dialect
    rw [Option.mem_def.mp hasked, Option.getD_some]
  · intro detection hasked
    show asked.detection.getD _ = detection
    rw [Option.mem_def.mp hasked, Option.getD_some]

end Session

end Handoff
