/-
# Handoff.Proofs.Session.Unwritten — settings that could not be written

A file store puts a value into its entries before it writes its file. When the file cannot be written it stays
as it was, and the entries do not: the store answers with the new value, and disagrees with its file unless it
kept that value before. Over a session this adds up to one equation. Whatever could be written and whatever
could not, what is generated behind a run of events is what the record of settings gives that went through the
same events, so an event that was answered with a failure is in force all the same.
-/

import Handoff.Proofs.Session.Reopened

namespace Handoff

open Json Settings

namespace Settings

/-! ## Setting a value without a file -/

section Set

variable {store : FileStore} {key : String} {value : Json} {e : StoreError}

/-- A value is put into the entries whether or not the file can be written. -/
theorem FileStore.entries_set (store : FileStore) (key : String) (value : Json) :
    (Store.set store key value).1.entries = store.entries.put key value.canonical := by
  show (FileStore.flush _).1.entries = _
  unfold flush
  split <;> rfl

theorem FileStore.path_set (store : FileStore) (key : String) (value : Json) :
    (Store.set store key value).1.path = store.path := by
  show (FileStore.flush _).1.path = _
  unfold flush
  split <;> rfl

/-- A file that could not be written is as it was. -/
theorem FileStore.disk_set_of_error (h : (Store.set store key value).2 = .error e) :
    (Store.set store key value).1.disk = store.disk := by
  revert h
  show (FileStore.flush _).2 = _ → (FileStore.flush _).1.disk = _
  unfold flush
  split
  next => exact nofun
  next => exact fun _ => rfl

theorem FileStore.get_set (store : FileStore) (key : String) (value : Json) (other : String) :
    Store.get (Store.set store key value).1 other =
      if other = key then .ok (some value.canonical) else Store.get store other := by
  show Except.ok ((Store.set store key value).1.entries.get? other) = _
  rw [FileStore.entries_set]
  split
  next h => rw [h, Entries.get?_put_self]
  next h => exact congrArg Except.ok (Entries.get?_put_of_ne _ _ h)

/-- A `set` leaves every value as it was only if the value was kept before. -/
theorem FileStore.get_set_eq_iff (store : FileStore) (key : String) (value : Json) :
    (∀ other, Store.get (Store.set store key value).1 other = Store.get store other) ↔
      Store.get store key = .ok (some value.canonical) := by
  constructor
  · intro hsame
    rw [← hsame key, FileStore.get_set, if_pos rfl]
  · intro hkept other
    rw [FileStore.get_set]
    split
    next h => rw [h, hkept]
    next => rfl

/-- A store that agreed with its file does so behind a failed `set` only if it kept the value before. -/
theorem FileStore.reopens_set_iff_of_error (h : (Store.set store key value).2 = .error e)
    (hreopens : store.Reopens) :
    (Store.set store key value).1.Reopens ↔ Store.get store key = .ok (some value.canonical) := by
  obtain ⟨reopened, hopen, hkept⟩ := hreopens
  rw [← FileStore.get_set_eq_iff, FileStore.Reopens, FileStore.path_set, FileStore.disk_set_of_error h]
  constructor
  · rintro ⟨reopened', hopen', hkept'⟩ other
    -- The file is the old one, so what is opened from it is what the store kept before.
    obtain rfl := Except.ok.inj (hopen.symm.trans hopen')
    exact congrArg Except.ok ((hkept' other).symm.trans (hkept other))
  · intro hsame
    exact ⟨reopened, hopen, fun other => (hkept other).trans (Except.ok.inj (hsame other)).symm⟩

end Set

end Settings

namespace Session

/-! ## The same session in memory -/

/-- A session over a file, with what its store keeps in memory only. -/
def inMemory (s : Session FileStore) : Session MemoryStore where
  store := ⟨s.store.entries⟩
  selection := s.selection
  identify := s.identify
  toClasses := s.toClasses
  detection := s.detection
  lastConfig := s.lastConfig

/-- Saving leaves what it leaves in memory, whether or not the file can be written. -/
theorem inMemory_set (s : Session FileStore) (key : String) (value : Json) :
    ({ s with store := (Store.set s.store key value).1 } : Session FileStore).inMemory =
      { s.inMemory with store := (Store.set s.inMemory.store key value).1 } := by
  simp only [inMemory, FileStore.entries_set]
  rfl

/-- So does an event, but for the last configuration: it is not remembered if nothing was generated. -/
theorem inMemory_handle (s : Session FileStore) (event : Event) :
    ∃ last, (s.handle event).1.inMemory = { s.inMemory.saved event with lastConfig := last } := by
  have hsave (key : String) (value : Json) (asked : Overrides) :
      ∃ last, (s.saveAndRender key value asked).1.inMemory =
        { s.inMemory with store := (Store.set s.inMemory.store key value).1, lastConfig := last } := by
    obtain ⟨last, hlast⟩ := s.saveAndRender_fst key value asked
    refine ⟨last, ?_⟩
    rw [hlast]
    exact congrArg (fun m : Session MemoryStore => { m with lastConfig := last }) (s.inMemory_set key value)
  cases event with
  | copied => exact ⟨s.lastConfig, rfl⟩
  | downloadAsked content => exact ⟨s.lastConfig, rfl⟩
  | detectionChosen detection =>
    obtain ⟨last, hlast⟩ := { s with detection }.render_fst { detection := some detection }
    exact ⟨last, congrArg inMemory hlast⟩
  | stylesheetChosen dialect => exact hsave _ _ _
  | unitChosen unit => exact hsave _ _ _
  | componentsDeclared components => exact hsave _ _ _

/-- An event replaces the setting that it names, whether or not the file can be written. -/
theorem preferences_inMemory_handle (s : Session FileStore) (event : Event) :
    (s.handle event).1.inMemory.preferences = s.inMemory.preferences.after event := by
  obtain ⟨last, hlast⟩ := s.inMemory_handle event
  rw [hlast, ← preferences_saved]
  rfl

theorem preferences_inMemory_run (s : Session FileStore) (history : List Event) :
    (s.run history).inMemory.preferences = history.foldl Preferences.after s.inMemory.preferences := by
  induction history generalizing s with
  | nil => rfl
  | cons event history ih =>
    rw [List.foldl_cons, ← preferences_inMemory_handle]
    exact ih (s.handle event).1

/-- A generation asks for what the store keeps, and not for what is in the file. -/
theorem attempt_inMemory (s : Session FileStore) (asked : Overrides) :
    s.attempt asked = s.inMemory.attempt asked :=
  attempt_congr (fun _ => rfl) rfl rfl rfl rfl

/-- **What is generated does not depend on what could be written.** Behind any run of events a session over a
file generates with the settings that went through the same events. -/
theorem attempt_run (s : Session FileStore) (history : List Event) (asked : Overrides) :
    let settings := history.foldl Preferences.after s.inMemory.preferences
    (s.run history).attempt asked =
      (s.outcome (settings.config asked) settings.components).map (settings.config asked, ·) := by
  intro settings
  have houtcome : (s.run history).inMemory.outcome = s.outcome := by
    obtain ⟨detection, last, hrun⟩ := s.run_eq history
    rw [hrun]
    rfl
  rw [attempt_inMemory, attempt_memory, preferences_inMemory_run, houtcome]

/-- **A failed write changes the store.** When a value could not be written, the file is as it was, the value
is kept under its key all the same, and every other key is untouched. So the store answers as before, and
agrees with its file if it did so before, exactly if it kept the value already. An event that saves the value
is answered with the failure, and its setting is in force from then on. -/
theorem unchanged_of_set_error_iff {store : FileStore} {key : String} {value : Json} {e : StoreError}
    (h : (Store.set store key value).2 = .error e) :
    let now := (Store.set store key value).1
    now.disk = store.disk ∧
      (∀ other, Store.get now other =
        if other = key then .ok (some value.canonical) else Store.get store other) ∧
      ((∀ other, Store.get now other = Store.get store other) ↔
        Store.get store key = .ok (some value.canonical)) ∧
      (store.Reopens → (now.Reopens ↔ Store.get store key = .ok (some value.canonical))) ∧
      ∀ (s : Session FileStore) (event : Event), s.store = store → event.entry? = some (key, value) →
        s.handle event = ({ s with store := now }, .error (.store e)) ∧
        ∀ history asked,
          let settings := (event :: history).foldl Preferences.after s.inMemory.preferences
          ((s.handle event).1.run history).attempt asked =
            (s.outcome (settings.config asked) settings.components).map (settings.config asked, ·) := by
  refine ⟨FileStore.disk_set_of_error h, FileStore.get_set store key value,
    FileStore.get_set_eq_iff store key value, FileStore.reopens_set_iff_of_error h, ?_⟩
  rintro s event rfl hentry
  have hsave : event.saveTo s.store = Store.set s.store key value := by
    rw [Event.saveTo, hentry]
  refine ⟨?_, fun history asked => s.attempt_run (event :: history) asked⟩
  rw [← hsave]
  exact handle_of_saveTo_error (hsave ▸ h)

/-- A settings file in a directory that does not exist. -/
def misplaced : FileStore :=
  { path := "settings.json", disk := .unreachable }

/-- An empty settings file that may not be written. -/
def locked : FileStore :=
  { path := "settings.json", disk := .readOnly "\x7b\x7d" }

theorem reopens_locked : locked.Reopens := by
  have hread : Json.read "\x7b\x7d" = .ok (.object []) := rfl
  exact ⟨_, FileStore.openAt_of_read _ rfl hread, fun _ => rfl⟩

/-- Choosing a unit fails in both places. Where there is no directory, code is generated with that unit from then
on; where the file may not be written, the store no longer agrees with it. -/
theorem unchanged_of_set_error_iff_misplaced :
    let s : Session FileStore :=
      { store := misplaced, selection := [.text { name := "Label" } { characters := "Hi" }] }
    (Store.set misplaced unitKey (ofName LengthUnit.names .rem)).2 = .error (.file .notFound) ∧
      (¬∀ other, Store.get (Store.set misplaced unitKey (ofName LengthUnit.names .rem)).1 other =
        Store.get misplaced other) ∧
      (s.handle (.unitChosen .rem)).2 = .error (.store (.file .notFound)) ∧
      (∃ output, s.attempt {} = .ok ({ unit := .px }, output)) ∧
      (∃ output, (s.handle (.unitChosen .rem)).1.attempt {} = .ok ({ unit := .rem }, output)) ∧
      (Store.set locked unitKey (ofName LengthUnit.names .rem)).2 = .error (.file .permissionDenied) ∧
      locked.Reopens ∧ ¬(Store.set locked unitKey (ofName LengthUnit.names .rem)).1.Reopens := by
  intro s
  have hfails : (Store.set misplaced unitKey (ofName LengthUnit.names .rem)).2 =
      .error (.file .notFound) := rfl
  obtain ⟨-, -, hsame, -, hsession⟩ := unchanged_of_set_error_iff hfails
  obtain ⟨hanswer, hforce⟩ := hsession s (.unitChosen .rem) rfl rfl
  have hchanged : Store.get misplaced unitKey ≠ .ok (some (ofName LengthUnit.names .rem).canonical) :=
    fun hkept => nomatch Except.ok.inj hkept
  have hshown (config : Config) : ∃ output, s.outcome config [] = .ok output :=
    outcome_of_visible rfl (by decide)
  have hlocked : (Store.set locked unitKey (ofName LengthUnit.names .rem)).2 =
      .error (.file .permissionDenied) := rfl
  obtain ⟨-, -, -, hagrees, -⟩ := unchanged_of_set_error_iff hlocked
  have hnew : Store.get locked unitKey ≠ .ok (some (ofName LengthUnit.names .rem).canonical) :=
    fun hkept => nomatch Except.ok.inj hkept
  refine ⟨hfails, fun hall => hchanged (hsame.mp hall), congrArg Prod.snd hanswer, ?_, ?_, hlocked,
    reopens_locked, fun hnow => hnew ((hagrees reopens_locked).mp hnow)⟩
  · obtain ⟨output, houtput⟩ := hshown { unit := .px }
    refine ⟨output, (s.attempt_run [] {}).trans ?_⟩
    exact congrArg (Except.map (({ unit := .px } : Config), ·)) houtput
  · obtain ⟨output, houtput⟩ := hshown { unit := .rem }
    refine ⟨output, (hforce [] {}).trans ?_⟩
    exact congrArg (Except.map (({ unit := .rem } : Config), ·)) houtput

/-- A value that could not be written is not forgotten: behind the failed `set` the store answers with it. -/
theorem not_forall_get_set_of_error :
    ¬∀ (store : FileStore) (key : String) (value : Json) (e : StoreError),
      (Store.set store key value).2 = .error e →
      ∀ other, Store.get (Store.set store key value).1 other = Store.get store other := by
  intro h
  have hsame := h misplaced unitKey (ofName LengthUnit.names .rem) (.file .notFound) rfl
  have hkept := (FileStore.get_set_eq_iff misplaced unitKey _).mp hsame
  cases Except.ok.inj hkept

end Session

end Handoff
