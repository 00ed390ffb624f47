/-
# Handoff.Proofs.Session.Preferences — a session is four settings

The settings of a session live in three places: values in its store, a field of the session, and what a
single request asks for. `Preferences` is the record that they amount to, and `Preferences.after` says
what an event does to it. Over a store in memory the session refines that record: an event replaces the
one setting that it names, whether or not the generation behind it succeeds, and every generation is a
function of the selection and the record.

The request that an event makes asks for the setting that the event has just saved. The bridge is
`handle_eq_render`: such a request is the empty one, so nothing that is kept is ever hidden by it.
-/

import Handoff.Proofs.Settings.Kept
import Handoff.Proofs.Tag.Build
import Handoff.Session.Basic

namespace Handoff

open Json Settings

/-! ## Settings in one record -/

/-- What a session generates with, besides its selection. -/
structure Preferences where
  unit : LengthUnit
  stylesheet : Stylesheet.Dialect
  components : List UserComponent
  detection : Detection
  deriving DecidableEq

namespace Preferences

/-- The settings behind an event: the one that it names is replaced. -/
def after (p : Preferences) : Session.Event → Preferences
  | .copied => p
  | .downloadAsked _ => p
  | .stylesheetChosen dialect => { p with stylesheet := dialect }
  | .unitChosen unit => { p with unit }
  | .detectionChosen detection => { p with detection }
  | .componentsDeclared components => { p with components }

/-- The configuration of a request under these settings. -/
def config (p : Preferences) (overrides : Overrides) : Config where
  unit := overrides.unit.getD p.unit
  stylesheet := overrides.stylesheet.getD p.stylesheet
  markup := overrides.markup
  detection := overrides.detection.getD p.detection

end Preferences

namespace Session

/-- The settings that are in force: those that the store keeps, and the session's own detection. A value
that is missing or does not fit its type stands for the default. -/
def preferences (s : Session MemoryStore) : Preferences where
  unit := (s.store.kept unitKey (asName LengthUnit.names)).getD .px
  stylesheet := (s.store.kept stylesheetKey (asName Stylesheet.Dialect.names)).getD .flat
  components := (s.store.kept componentsKey UserComponent.decodeList).getD []
  detection := s.detection

/-! ## Generation -/

/-- What a session makes of its selection with a configuration and declared components. -/
def outcome (s : Session σ) (config : Config) (components : List UserComponent) :
    Except SessionError Output :=
  match root s.selection with
  | .error e => .error e
  | .ok node =>
    match s.output? node config components with
    | some output => .ok output
    | none => .error (.invisibleRoot node.name)

/-- A node gives an output exactly if it is visible. -/
theorem output?_isSome (s : Session σ) (node : SceneNode) (config : Config)
    (components : List UserComponent) : (s.output? node config components).isSome = node.visible := by
  rw [output?, Option.isSome_map]
  exact Tag.buildIn_isSome node

section Outcome

variable {s : Session σ} {node : SceneNode} {config : Config} {components : List UserComponent}

/-- One visible node always gives an output. -/
theorem outcome_of_visible (hsel : s.selection = [node]) (hv : node.visible) :
    ∃ output, s.outcome config components = .ok output := by
  obtain ⟨output, hout⟩ := Option.isSome_iff_exists.mp
    ((s.output?_isSome node config components).trans hv)
  exact ⟨output, by simp [outcome, hsel, root, hout]⟩

theorem outcome_of_hidden (hsel : s.selection = [node]) (hv : ¬node.visible) :
    s.outcome config components = .error (.invisibleRoot node.name) := by
  have hnone : s.output? node config components = none := by
    rw [← Option.not_isSome_iff_eq_none, output?_isSome]
    exact hv
  simp [outcome, hsel, root, hnone]

theorem outcome_of_many (hmany : ∀ node, s.selection ≠ [node]) :
    s.outcome config components = .error (.invalidSelection s.selection.length) := by
  have hroot : root s.selection = .error (.invalidSelection s.selection.length) := by
    cases hsel : s.selection with
    | nil => rfl
    | cons first rest =>
      cases rest with
      | nil => exact absurd hsel (hmany first)
      | cons second rest => rfl
  rw [outcome, hroot]

end Outcome

/-- Over a store in memory a request is resolved to a configuration under the settings in force. -/
theorem resolve_complete (s : Session MemoryStore) (overrides : Overrides) :
    (s.complete overrides).resolve s.store = .ok (s.preferences.config overrides) := by
  rw [resolve_memory]
  cases hd : overrides.detection <;> simp [complete, Preferences.config, preferences, hd]

/-- Over a store in memory an attempt depends on the settings in force and on nothing else that is kept. -/
theorem attempt_memory (s : Session MemoryStore) (overrides : Overrides) :
    s.attempt overrides =
      (s.outcome (s.preferences.config overrides) s.preferences.components).map
        fun output => (s.preferences.config overrides, output) := by
  rw [attempt, resolve_complete, load_memory, outcome]
  cases root s.selection with
  | error e => rfl
  | ok node =>
    show (match s.output? node (s.preferences.config overrides) s.preferences.components with
      | some output => _
      | none => _) = _
    cases hout : s.output? node (s.preferences.config overrides) s.preferences.components with
    | none => simp only [hout]; rfl
    | some output => simp only [hout]; rfl

/-- What a generation answers. -/
theorem generate_memory_snd (s : Session MemoryStore) (overrides : Overrides) :
    (s.generate overrides).2 = s.outcome (s.preferences.config overrides) s.preferences.components := by
  rw [generate, attempt_memory]
  cases s.outcome (s.preferences.config overrides) s.preferences.components <;> rfl

/-- What a generation leaves: only the last configuration may have changed, and only by success. -/
theorem generate_memory_fst (s : Session MemoryStore) (overrides : Overrides) :
    (s.generate overrides).1 =
      match s.outcome (s.preferences.config overrides) s.preferences.components with
      | .ok _ => { s with lastConfig := some (s.preferences.config overrides) }
      | .error _ => s := by
  rw [generate, attempt_memory]
  cases s.outcome (s.preferences.config overrides) s.preferences.components <;> rfl

/-- Requests that come to one configuration are answered alike. -/
theorem render_congr {s : Session MemoryStore} {asked asked' : Overrides}
    (h : s.preferences.config asked = s.preferences.config asked') : s.render asked = s.render asked' := by
  have hattempt : s.attempt asked = s.attempt asked' := by
    rw [attempt_memory, attempt_memory, h]
  rw [render, render, generate, generate, hattempt]

/-! ## One event -/

/-- Whether an event names a setting. -/
def Event.isSetting : Event → Bool
  | .copied => false
  | .downloadAsked _ => false
  | _ => true

/-- The session with the setting that an event names in place of the old one, before it generates. -/
def saved (s : Session MemoryStore) : Event → Session MemoryStore
  | .copied => s
  | .downloadAsked _ => s
  | .stylesheetChosen dialect =>
    { s with store := (Store.set s.store stylesheetKey (ofName Stylesheet.Dialect.names dialect)).1 }
  | .unitChosen unit => { s with store := (Store.set s.store unitKey (ofName LengthUnit.names unit)).1 }
  | .detectionChosen detection => { s with detection }
  | .componentsDeclared components =>
    { s with store := (Store.set s.store componentsKey (UserComponent.encodeList components)).1 }

/-- Saving replaces the one setting that the event names. -/
theorem preferences_saved (s : Session MemoryStore) (event : Event) :
    (s.saved event).preferences = s.preferences.after event := by
  cases event with
  | copied => rfl
  | downloadAsked content => rfl
  | detectionChosen detection => rfl
  | stylesheetChosen dialect =>
    have hread := asName_ofName Stylesheet.Dialect.names_all dialect
    rw [← canonical_ofName] at hread
    simp only [saved, preferences, Preferences.after, MemoryStore.kept_set_self _ _ hread,
      MemoryStore.kept_set_of_ne _ _ (show unitKey ≠ stylesheetKey by decide),
      MemoryStore.kept_set_of_ne _ _ (show componentsKey ≠ stylesheetKey by decide), Option.getD_some]
  | unitChosen unit =>
    have hread := asName_ofName LengthUnit.names_all unit
    rw [← canonical_ofName] at hread
    simp only [saved, preferences, Preferences.after, MemoryStore.kept_set_self _ _ hread,
      MemoryStore.kept_set_of_ne _ _ (show stylesheetKey ≠ unitKey by decide),
      MemoryStore.kept_set_of_ne _ _ (show componentsKey ≠ unitKey by decide), Option.getD_some]
  | componentsDeclared components =>
    have hread := UserComponent.decodeList_encodeList components
    rw [← UserComponent.canonical_encodeList] at hread
    simp only [saved, preferences, Preferences.after, MemoryStore.kept_set_self _ _ hread,
      MemoryStore.kept_set_of_ne _ _ (show unitKey ≠ componentsKey by decide),
      MemoryStore.kept_set_of_ne _ _ (show stylesheetKey ≠ componentsKey by decide), Option.getD_some]

/-- A setting is saved, and then the code is generated with nothing asked for: the event's own request
asks for what has just been saved. -/
theorem handle_eq_render (s : Session MemoryStore) {event : Event} (h : event.isSetting) :
    s.handle event = (s.saved event).render {} := by
  cases event with
  | copied => cases h
  | downloadAsked content => cases h
  | componentsDeclared components => rfl
  | stylesheetChosen dialect =>
    refine render_congr (s := s.saved (.stylesheetChosen dialect)) ?_
    rw [preferences_saved]
    rfl
  | unitChosen unit =>
    refine render_congr (s := s.saved (.unitChosen unit)) ?_
    rw [preferences_saved]
    rfl
  | detectionChosen detection =>
    refine render_congr (s := s.saved (.detectionChosen detection)) ?_
    rw [preferences_saved]
    rfl

/-- A generation leaves the settings in force. -/
theorem preferences_render (s : Session MemoryStore) (overrides : Overrides) :
    (s.render overrides).1.preferences = s.preferences := by
  show (s.generate overrides).1.preferences = s.preferences
  rw [generate_memory_fst]
  cases s.outcome (s.preferences.config overrides) s.preferences.components <;> rfl

/-- It leaves what any later generation comes to. -/
theorem outcome_render (s : Session MemoryStore) (overrides : Overrides) :
    (s.render overrides).1.outcome = s.outcome := by
  show (s.generate overrides).1.outcome = s.outcome
  rw [generate_memory_fst]
  cases s.outcome (s.preferences.config overrides) s.preferences.components <;> rfl

/-- An event replaces the setting that it names and leaves the others, whatever comes of the generation. -/
theorem preferences_handle (s : Session MemoryStore) (event : Event) :
    (s.handle event).1.preferences = s.preferences.after event := by
  by_cases h : event.isSetting
  · rw [handle_eq_render s h, preferences_render, preferences_saved]
  · cases event with
    | copied => rfl
    | downloadAsked content => rfl
    | _ => exact absurd rfl h

/-! ## Answers -/

/-- What an event that names no setting comes to. -/
def passedOn : Event → Action
  | .downloadAsked content => .download content
  | _ => .notify copiedNotice

/-- How a session answers when it generates, given what it was before and what it is then. If exactly one
visible node is selected, it shows what an empty request would now give, and remembers the configuration;
otherwise it says which of the two is wrong, and remembers what it did before. -/
def Answers (before now : Session MemoryStore) (answer : Except SessionError Action) : Prop :=
  match before.selection with
  | [node] =>
    if node.visible then
      ∃ output, answer = .ok (.render output) ∧ (now.generate {}).2 = .ok output ∧
        now.lastConfig = some (now.preferences.config {})
    else answer = .error (.invisibleRoot node.name) ∧ now.lastConfig = before.lastConfig
  | nodes => answer = .error (.invalidSelection nodes.length) ∧ now.lastConfig = before.lastConfig

/-- A session that generates answers in this way. -/
theorem answers_render (s : Session MemoryStore) : Answers s (s.render {}).1 (s.render {}).2 := by
  have hanswer : (s.render {}).2 =
      (s.outcome (s.preferences.config {}) s.preferences.components).map Action.render :=
    congrArg (Except.map Action.render) (s.generate_memory_snd {})
  have hnow : (s.render {}).1 =
      match s.outcome (s.preferences.config {}) s.preferences.components with
      | .ok _ => { s with lastConfig := some (s.preferences.config {}) }
      | .error _ => s := s.generate_memory_fst {}
  rw [Answers, generate_memory_snd, preferences_render, outcome_render, hanswer, hnow]
  split
  next node hsel =>
    by_cases hv : node.visible
    · obtain ⟨output, hout⟩ :
          ∃ output, s.outcome (s.preferences.config {}) s.preferences.components = .ok output :=
        outcome_of_visible hsel hv
      rw [if_pos hv, hout]
      exact ⟨output, rfl, rfl, rfl⟩
    · rw [if_neg hv, outcome_of_hidden hsel hv]
      exact ⟨rfl, rfl⟩
  next hmany =>
    rw [outcome_of_many hmany]
    exact ⟨rfl, rfl⟩

/-- Every event that names a setting is answered in this way, whatever setting it names. -/
theorem answers_handle (s : Session MemoryStore) {event : Event} (h : event.isSetting) :
    Answers s (s.handle event).1 (s.handle event).2 := by
  have hselection : (s.saved event).selection = s.selection := by cases event <;> rfl
  have hconfig : (s.saved event).lastConfig = s.lastConfig := by cases event <;> rfl
  have hanswers := (s.saved event).answers_render
  rw [← handle_eq_render s h] at hanswers
  simpa only [Answers, hselection, hconfig] using hanswers

/-- An event that names no setting is passed on, and nothing changes. -/
theorem handle_of_not_isSetting (s : Session MemoryStore) {event : Event} (h : ¬event.isSetting) :
    s.handle event = (s, .ok (passedOn event)) := by
  cases event with
  | copied => rfl
  | downloadAsked content => rfl
  | _ => exact absurd rfl h

/-! ## Runs of events -/

/-- The session behind a run of events. -/
def run (s : Session σ) [Store σ] (history : List Event) : Session σ :=
  history.foldl (fun s event => (s.handle event).1) s

theorem preferences_run (s : Session MemoryStore) (history : List Event) :
    (s.run history).preferences = history.foldl Preferences.after s.preferences := by
  induction history generalizing s with
  | nil => rfl
  | cons event history ih =>
    rw [List.foldl_cons, ← preferences_handle]
    exact ih (s.handle event).1

theorem outcome_handle (s : Session MemoryStore) (event : Event) :
    (s.handle event).1.outcome = s.outcome := by
  by_cases h : event.isSetting
  · rw [handle_eq_render s h, outcome_render]
    cases event <;> rfl
  · rw [handle_of_not_isSetting s h]

theorem outcome_run (s : Session MemoryStore) (history : List Event) :
    (s.run history).outcome = s.outcome := by
  induction history generalizing s with
  | nil => rfl
  | cons event history ih =>
    rw [← outcome_handle s event]
    exact ih (s.handle event).1

/-- **A session refines the record of its settings.** Whatever the store held at first and whatever
happened since, the settings in force are those of the record that went through the same events, and
generating with nothing asked for is a function of the selection and that record. The next event replaces
the one setting that it names; if it names one, the answer shows what generating would now give, and if
not, the session is as it was. -/
theorem run_refines_preferences (s : Session MemoryStore) (history : List Event) (event : Event) :
    let settings := history.foldl Preferences.after s.preferences
    let now := s.run history
    let next := now.handle event
    now.preferences = settings ∧
      (now.generate {}).2 = s.outcome (settings.config {}) settings.components ∧
      next.1.preferences = settings.after event ∧
      if event.isSetting then Answers now next.1 next.2 else next = (now, .ok (passedOn event)) := by
  intro settings now next
  have hnow : now.preferences = settings := s.preferences_run history
  refine ⟨hnow, ?_, ?_, ?_⟩
  · rw [generate_memory_snd, hnow, outcome_run]
  · rw [← hnow]
    exact now.preferences_handle event
  · split
    next h => exact now.answers_handle h
    next h => exact now.handle_of_not_isSetting h

end Session

end Handoff
