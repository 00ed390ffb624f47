/-
# Handoff.Proofs.Session.Reopened — sessions over a settings file

An event saves at most one setting, and only under one of three keys. Over any store that is all that an event
does to the store, whatever comes of the generation behind it. Over a file it keeps the file and the entries in
step as long as the writing succeeds; so after any run of events the file can be opened again, and a session
over it generates what the old one would, since a generation only asks the store for what it keeps.
-/

import Handoff.Proofs.Session.Preferences
import Handoff.Proofs.Settings.Reopened

namespace Handoff

open Json Settings

namespace Session

/-! ## What an event saves -/

/-- The key and the value that an event saves. -/
def Event.entry? : Event → Option (String × Json)
  | .copied => none
  | .downloadAsked _ => none
  | .stylesheetChosen dialect => some (stylesheetKey, ofName Stylesheet.Dialect.names dialect)
  | .unitChosen unit => some (unitKey, ofName LengthUnit.names unit)
  | .detectionChosen _ => none
  | .componentsDeclared components => some (componentsKey, UserComponent.encodeList components)

/-- The keys under which events save. -/
def settingKeys : List String :=
  [unitKey, stylesheetKey, componentsKey]

theorem Event.key_mem_settingKeys {event : Event} {entry : String × Json} (h : event.entry? = some entry) :
    entry.1 ∈ settingKeys := by
  cases event <;> cases h <;> simp [settingKeys]

/-- A file gives back whatever an event saves. -/
theorem Event.legibleValue {event : Event} {entry : String × Json} (h : event.entry? = some entry) :
    LegibleValue entry.2 := by
  cases event <;> cases h
  · exact legibleValue_ofName _ _
  · exact legibleValue_ofName _ _
  · exact legibleValue_encodeList _

section AnyStore

variable {σ τ : Type} [Store σ] [Store τ]

/-- What an event does to a store. -/
def Event.saveTo (event : Event) (store : σ) : σ × Except StoreError Unit :=
  match event.entry? with
  | some (key, value) => Store.set store key value
  | none => (store, .ok ())

/-- A generation changes nothing but the last configuration. -/
theorem render_fst (s : Session σ) (overrides : Overrides) :
    ∃ last, (s.render overrides).1 = { s with lastConfig := last } := by
  show ∃ last, (s.generate overrides).1 = _
  unfold generate
  split
  next config output h => exact ⟨some config, rfl⟩
  next e h => exact ⟨s.lastConfig, rfl⟩

theorem saveAndRender_fst (s : Session σ) (key : String) (value : Json) (overrides : Overrides) :
    ∃ last, (s.saveAndRender key value overrides).1 =
      { s with store := (Store.set s.store key value).1, lastConfig := last } := by
  unfold saveAndRender
  split
  next saved h =>
    have hsaved : saved = { s with store := (Store.set s.store key value).1 } := (congrArg Prod.fst h).symm
    obtain ⟨last, hlast⟩ := saved.render_fst overrides
    exact ⟨last, by rw [hlast, hsaved]⟩
  next saved e h =>
    have hsaved : saved = { s with store := (Store.set s.store key value).1 } := (congrArg Prod.fst h).symm
    exact ⟨s.lastConfig, hsaved⟩

/-- An event changes the store by what it saves, the detection and the last configuration. -/
theorem handle_fst (s : Session σ) (event : Event) :
    ∃ detection last, (s.handle event).1 =
      { s with store := (event.saveTo s.store).1, detection, lastConfig := last } := by
  cases event with
  | copied => exact ⟨s.detection, s.lastConfig, rfl⟩
  | downloadAsked content => exact ⟨s.detection, s.lastConfig, rfl⟩
  | stylesheetChosen dialect => exact ⟨s.detection, s.saveAndRender_fst _ _ _⟩
  | unitChosen unit => exact ⟨s.detection, s.saveAndRender_fst _ _ _⟩
  | detectionChosen detection => exact ⟨detection, { s with detection }.render_fst _⟩
  | componentsDeclared components => exact ⟨s.detection, s.saveAndRender_fst _ _ _⟩

theorem saveAndRender_of_error {s : Session σ} {key : String} {value : Json} {e : StoreError}
    (h : (Store.set s.store key value).2 = .error e) (overrides : Overrides) :
    s.saveAndRender key value overrides =
      ({ s with store := (Store.set s.store key value).1 }, .error (.store e)) := by
  have hsave : s.save key value =
      ({ s with store := (Store.set s.store key value).1 }, .error (.store e)) := by
    show (_, (Store.set s.store key value).2.mapError _) = _
    rw [h]
    rfl
  rw [saveAndRender, hsave]

/-- An event that cannot save is answered with the failure, and nothing is generated: beside the store, the
session is as it was. -/
theorem handle_of_saveTo_error {s : Session σ} {event : Event} {e : StoreError}
    (h : (event.saveTo s.store).2 = .error e) :
    s.handle event = ({ s with store := (event.saveTo s.store).1 }, .error (.store e)) := by
  cases event with
  | copied => cases h
  | downloadAsked content => cases h
  | detectionChosen detection => cases h
  | stylesheetChosen dialect => exact saveAndRender_of_error h _
  | unitChosen unit => exact saveAndRender_of_error h _
  | componentsDeclared components => exact saveAndRender_of_error h _

/-- Whether all that a run of events saves can be written. -/
def WritesSucceed (s : Session σ) : List Event → Prop
  | [] => True
  | event :: history =>
    (event.saveTo s.store).2 = .ok () ∧ (s.handle event).1.WritesSucceed history

/-- A run of events saves what the single events save, and leaves the selection, the identifier and the
translator. -/
theorem run_eq (s : Session σ) (history : List Event) :
    ∃ detection last, s.run history =
      { s with
        store := history.foldl (fun store event => (event.saveTo store).1) s.store
        detection
        lastConfig := last } := by
  induction history generalizing s with
  | nil => exact ⟨s.detection, s.lastConfig, rfl⟩
  | cons event history ih =>
    obtain ⟨detection, last, hhandle⟩ := s.handle_fst event
    obtain ⟨detection', last', hrun⟩ := ih (s.handle event).1
    refine ⟨detection', last', ?_⟩
    show (s.handle event).1.run history = _
    rw [hrun, hhandle]
    rfl

/-! ## What a generation asks for -/

/-- Stores that keep the same. -/
def KeepAlike (store : σ) (store' : τ) : Prop :=
  ∀ key, Store.get store key = Store.get store' key

theorem load_congr {store : σ} {store' : τ} (h : KeepAlike store store') (key : String)
    (decode : Json → Decoded α) : load store key decode = load store' key decode := by
  rw [load, load, h key]

theorem resolve_congr {store : σ} {store' : τ} (h : KeepAlike store store') (asked : Overrides) :
    asked.resolve store = asked.resolve store' := by
  have hchoose : ∀ {α : Type} (key : String) (asked : Option α) (decode : Json → Decoded α) (fallback : α),
      choose store key asked decode fallback = choose store' key asked decode fallback := by
    intro α key asked decode fallback
    unfold choose
    rw [load_congr h]
  rw [Overrides.resolve, Overrides.resolve, hchoose, hchoose]

/-- Sessions with one selection over stores that keep the same answer a request alike, if their detection is
one or the request asks for it. -/
theorem attempt_congr {s : Session σ} {s' : Session τ} (hstore : KeepAlike s.store s'.store)
    (hselection : s.selection = s'.selection) (hidentify : s.identify = s'.identify)
    (htoClasses : s.toClasses = s'.toClasses) {asked asked' : Overrides}
    (hasked : s.complete asked = s'.complete asked') : s.attempt asked = s'.attempt asked' := by
  have houtput : s.output? = s'.output? := by
    funext node config components
    rw [output?, output?, hidentify, htoClasses]
  rw [attempt, attempt, hasked, hselection, houtput, resolve_congr hstore, load_congr hstore]

theorem render_snd (s : Session σ) (asked : Overrides) :
    (s.render asked).2 = (s.attempt asked).map fun result => .render result.2 := by
  show (s.generate asked).2.map Action.render = _
  unfold generate
  cases s.attempt asked <;> rfl

/-- A new session shows what an old one shows when its detection is set back. -/
theorem start_eq_respond {s : Session σ} {s' : Session τ} (hstore : KeepAlike s.store s'.store)
    (hselection : s.selection = s'.selection) (hidentify : s.identify = s'.identify)
    (htoClasses : s.toClasses = s'.toClasses) (hdetection : s.detection = .identify) :
    s.start.2 = (s'.respond (.detectionChosen .identify)).2 := by
  have hattempt : s.attempt {} = { s' with detection := .identify }.attempt { detection := some .identify } := by
    refine attempt_congr hstore hselection hidentify htoClasses ?_
    rw [complete, complete, hdetection]
    rfl
  show orNotice (s.render {}).2 =
    orNotice ({ s' with detection := .identify }.render { detection := some .identify }).2
  rw [render_snd, render_snd, hattempt]

end AnyStore

/-! ## Over a file -/

/-- What stays true of a file store while its file is written: it can be opened again, and what was there
first is still there, but for the settings. -/
structure Continues (original store : FileStore) : Prop where
  path : store.path = original.path
  legible : Legible store.entries
  reopens : store.Reopens
  foreign : ∀ key ∉ settingKeys, store.entries.get? key = original.entries.get? key

theorem Continues.saveTo {original store : FileStore} (h : Continues original store) {event : Event}
    (hwrite : (event.saveTo store).2 = .ok ()) : Continues original (event.saveTo store).1 := by
  unfold Event.saveTo at hwrite ⊢
  split at hwrite
  next key value hentry =>
    obtain ⟨hlegible, hreopens⟩ := FileStore.reopens_set h.legible (Event.legibleValue hentry) hwrite
    refine ⟨?_, hlegible, hreopens, fun other hother => ?_⟩
    · rw [FileStore.set_of_ok hwrite]
      exact h.path
    · have hne : other ≠ key := fun heq => hother (heq ▸ Event.key_mem_settingKeys hentry)
      rw [FileStore.set_of_ok hwrite, ← h.foreign other hother]
      exact Entries.get?_put_of_ne _ _ hne
  next => exact h

theorem Continues.run {original : FileStore} {s : Session FileStore} (h : Continues original s.store)
    {history : List Event} (hwrites : s.WritesSucceed history) :
    Continues original (s.run history).store := by
  induction history generalizing s with
  | nil => exact h
  | cons event history ih =>
    obtain ⟨hwrite, hrest⟩ := hwrites
    obtain ⟨detection, last, hhandle⟩ := s.handle_fst event
    have hnext : Continues original (s.handle event).1.store := by
      rw [hhandle]
      exact h.saveTo hwrite
    exact ih hnext hrest

theorem Event.saveTo_of_file {store : FileStore} {content : String} (h : store.disk = .file content)
    (event : Event) :
    (event.saveTo store).2 = .ok () ∧ ∃ written, (event.saveTo store).1.disk = .file written := by
  unfold Event.saveTo
  split
  next key value hentry => exact FileStore.set_of_file h key value
  next => exact ⟨rfl, content, h⟩

/-- Where there is a file, everything that is saved can be written. -/
theorem writesSucceed_of_file {s : Session FileStore} {content : String}
    (h : s.store.disk = .file content) (history : List Event) : s.WritesSucceed history := by
  induction history generalizing s content with
  | nil => trivial
  | cons event history ih =>
    obtain ⟨hwrite, written, hdisk⟩ := Event.saveTo_of_file h event
    obtain ⟨detection, last, hhandle⟩ := s.handle_fst event
    exact ⟨hwrite, ih (by rw [hhandle]; exact hdisk)⟩

/-- **Settings survive, and so does everything else in the file.** A file that holds an object, or is not
there, is opened, with the last member of each key in canonical form. Behind any run of events whose writing
succeeds it can be opened again: every key is as the live store has it, every key that is no setting is as it
was at first, and a new session for the same selection opens with what the old one shows when its detection is
set back. Of the doubles in the file it is asked that they be read back from their text. -/
theorem run_reopens (path : String) {disk : Disk} {members : List (String × Json)}
    (hfile : disk.Holds members)
    (hreals : ∀ x, .real x ∈ (Json.object members).numbers → (Number.real x).ReadsBack) :
    ∃ original, FileStore.openAt path disk = .ok original ∧
      (∀ key, Store.get original key = .ok ((members.reverse.lookup key).map canonical)) ∧
      ∀ (s : Session FileStore) (history : List Event), s.store = original → s.WritesSucceed history →
        let now := s.run history
        ∃ reopened, FileStore.openAt path now.store.disk = .ok reopened ∧
          (∀ key, Store.get reopened key = Store.get now.store key) ∧
          (∀ key ∉ settingKeys, Store.get now.store key = Store.get original key) ∧
          ({ store := reopened, selection := s.selection, identify := s.identify,
             toClasses := s.toClasses } : Session FileStore).start.2 =
            (now.respond (.detectionChosen .identify)).2 := by
  -- Before the first event the store was just opened, so opening it once more gives it back.
  obtain ⟨original, hopen, rfl, rfl, hlegible, hget⟩ := FileStore.openAt_of_holds path hfile hreals
  refine ⟨original, hopen, fun key => congrArg Except.ok (hget key), ?_⟩
  intro s history hstore hwrites now
  have hstart : Continues original s.store := by
    rw [hstore]
    exact ⟨rfl, hlegible, ⟨original, hopen, fun key => rfl⟩, fun key _ => rfl⟩
  obtain ⟨hpath, -, ⟨reopened, hreopen, hkept⟩, hforeign⟩ := hstart.run hwrites
  obtain ⟨detection, last, hnow⟩ := s.run_eq history
  have hselection : s.selection = now.selection := by rw [show now = _ from hnow]
  have hidentify : s.identify = now.identify := by rw [show now = _ from hnow]
  have htoClasses : s.toClasses = now.toClasses := by rw [show now = _ from hnow]
  refine ⟨reopened, hpath ▸ hreopen, fun key => congrArg Except.ok (hkept key),
    fun key hkey => congrArg Except.ok (hforeign key hkey), ?_⟩
  exact start_eq_respond (fun key => congrArg Except.ok (hkept key)) hselection hidentify htoClasses rfl

/-- The settings of a program that keeps values of its own in the same file. -/
def sharedSettings : List (String × Json) :=
  [("theme", .text "dark"), (unitKey, .text "rem"), ("zoom", .number (.real 1.5))]

def sharedText : String :=
  "\x7b\n  \"theme\": \"dark\",\n  \"unit-type\": \"rem\",\n  \"zoom\": 1.5\n\x7d"

theorem readsBack_zoom : (Number.real 1.5).ReadsBack := by
  have htext : (Number.real 1.5).text = "1.5" := by decide +kernel
  have hscan : Decimal.Literal.scan "1.5".toList = some ⟨none, ['1'], some ['5'], none⟩ := rfl
  have hvalue : Decimal.Literal.scaledValue ⟨none, ['1'], some ['5'], none⟩ = 1.5 := by
    show Decimal.lower (Float.ofNat 15) 1 = 1.5
    rw [Decimal.lower, dif_pos (by decide)]
    rfl
  rw [Number.ReadsBack, htext, readBare_of_scan hscan rfl, Number.ofLiteral, hvalue]
  rfl

/-- Choosing a unit, declaring components and switching detection off leaves the other program's values. -/
theorem run_reopens_shared :
    ∃ original, FileStore.openAt "settings.json" (.file sharedText) = .ok original ∧
      let s : Session FileStore :=
        { store := original, selection := [.text { name := "Label" } { characters := "Hi" }] }
      let now := s.run [.unitChosen .px, .componentsDeclared [{ name := "Label", props := [] }],
        .detectionChosen .ignore, .copied]
      ∃ reopened, FileStore.openAt "settings.json" now.store.disk = .ok reopened ∧
        Store.get reopened unitKey = .ok (some (.text "px")) ∧
        Store.get reopened "zoom" = .ok (some (.number (.real 1.5))) ∧
        ({ store := reopened, selection := s.selection } : Session FileStore).start.2 =
          (now.respond (.detectionChosen .identify)).2 := by
  have htext : sharedText = FileStore.textOf sharedSettings := by decide +kernel
  have hreals : ∀ k ∈ (Json.object sharedSettings).numbers, k.ReadsBack :=
    List.forall_mem_singleton.mpr readsBack_zoom
  have hfile : (Disk.file sharedText).Holds sharedSettings := by
    rw [htext]
    exact readWithin_indented ⟨by decide, hreals⟩
  obtain ⟨original, hopen, hget, hrun⟩ := run_reopens "settings.json" hfile fun x hx => hreals _ hx
  obtain rfl := Except.ok.inj (hopen.symm.trans (FileStore.openAt_of_read _ rfl hfile))
  refine ⟨_, hopen, ?_⟩
  intro s now
  obtain ⟨reopened, hreopened, hkept, hforeign, hstart⟩ := hrun s _ rfl (writesSucceed_of_file rfl _)
  obtain ⟨detection, last, hnow⟩ := s.run_eq _
  refine ⟨reopened, hreopened, ?_, ?_, hstart⟩
  · rw [hkept, hnow]
    rfl
  · rw [hkept, hforeign _ (by decide), hget]
    rfl

end Session

end Handoff
