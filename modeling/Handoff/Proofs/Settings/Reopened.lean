/-
# Handoff.Proofs.Settings.Reopened — a settings file gives its settings back

A file store has its settings twice: as entries in memory, and as the text in its file. Both are kept in step by
writing the whole text whenever an entry is put. What has to hold of the entries for that to work is `Legible`:
no key stands twice, every value is in canonical form, not nested too deep, and its numbers are read back.
Opening a file gives such entries, putting a value of this kind keeps them so, and a file that was written from
them is opened again with every key as it was.
-/

import Handoff.Proofs.Json.Layout
import Handoff.Proofs.Settings.Kept
import Handoff.Settings.File

namespace Handoff.Settings

open Json

/-! ## Opening a file -/

/-- What a settings file holds. A file that is not there holds no settings. -/
def Disk.Holds (disk : Disk) (members : List (String × Json)) : Prop :=
  match disk with
  | .file content => Json.read content = .ok (.object members)
  | .readOnly content => Json.read content = .ok (.object members)
  | .vacant => members = []
  | .unreachable => members = []
  | .directory => False

/-- The entries of a file are the members of its object in canonical form. -/
theorem FileStore.openAt_of_read (path : String) {disk : Disk} {content : String}
    {members : List (String × Json)} (hdisk : disk.read = .ok (some content))
    (h : Json.read content = .ok (.object members)) :
    openAt path disk = .ok {
      path
      disk
      entries := sortMembers (members.map fun m => (m.1, m.2.canonical)) } := by
  have hentries : entriesOf path content =
      .ok (sortMembers (members.map fun m => (m.1, m.2.canonical))) := by
    have hread : (Json.read content).mapError StoreError.notJson = .ok (.object members) := by
      rw [h]
      rfl
    rw [entriesOf, hread, ok_bind, canonical_object]
    rfl
  have htext : disk.read.mapError StoreError.file = .ok (some content) := by
    rw [hdisk]
    rfl
  rw [openAt, htext, ok_bind]
  show (entriesOf path content >>= fun entries => Except.ok (⟨path, disk, entries⟩ : FileStore)) = _
  rw [hentries]
  rfl

/-! ## Legible entries -/

/-- A value that a file gives back as it is. -/
structure LegibleValue (v : Json) : Prop where
  canonical : v.canonical = v
  /-- It stands one level deep in the file. -/
  fits : FitsIn Number.ReadsBack (documentDepth - 1) v

/-- Entries that a file gives back as they are. -/
structure Legible (entries : Entries) : Prop where
  distinct : entries.keys.Nodup
  values : ∀ e ∈ entries, LegibleValue e.2

theorem legible_nil : Legible [] :=
  ⟨.nil, List.forall_mem_nil _⟩

theorem Entries.of_mem_put {entries : Entries} {key : String} {value : Json} {e : String × Json}
    (h : e ∈ entries.put key value) : e = (key, value) ∨ e ∈ entries := by
  induction entries with
  | nil => exact .inl (List.mem_singleton.mp h)
  | cons first rest ih =>
    rw [put] at h
    split at h
    · exact (List.mem_cons.mp h).imp_right (List.mem_cons_of_mem first)
    · rcases List.mem_cons.mp h with rfl | h
      · exact .inr List.mem_cons_self
      · exact (ih h).imp_right (List.mem_cons_of_mem first)

section Legible

variable {entries : Entries}

theorem Legible.put (h : Legible entries) (key : String) {value : Json} (hvalue : LegibleValue value) :
    Legible (entries.put key value) := by
  refine ⟨?_, fun e he => ?_⟩
  · rw [Entries.keys_put]
    split
    · exact h.distinct
    next hnew =>
      refine List.nodup_append.mpr ⟨h.distinct, List.nodup_cons.mpr ⟨List.not_mem_nil, .nil⟩, ?_⟩
      rintro k hk other hother rfl
      exact hnew (List.mem_singleton.mp hother ▸ hk)
  · rcases Entries.of_mem_put he with rfl | he
    · exact hvalue
    · exact h.values e he

/-- The text of legible entries is read as these entries. -/
theorem Legible.read_textOf (h : Legible entries) :
    Json.read (FileStore.textOf entries) = .ok (.object entries) := by
  have hparts : ∀ p ∈ (Json.object entries).parts, LegibleValue p := List.forall_mem_map.mpr h.values
  exact readWithin_indented (fitsIn_of_parts (fun _ heq => nomatch heq) fun p hp => (hparts p hp).fits)

/-- A file that was written from legible entries is opened with every key as it was. -/
theorem Legible.openAt_textOf (h : Legible entries) (path : String) :
    ∃ store, FileStore.openAt path (.file (FileStore.textOf entries)) = .ok store ∧
      ∀ key, store.entries.get? key = entries.get? key := by
  refine ⟨_, FileStore.openAt_of_read path rfl h.read_textOf, fun key => ?_⟩
  have hvalues : ∀ e ∈ entries, (e.1, e.2.canonical) = e := fun e he => by rw [(h.values e he).canonical]
  rw [List.map_congr_left hvalues, List.map_id']
  show (sortMembers entries).lookup key = entries.lookup key
  rw [lookup_sortMembers, lookup_reverse h.distinct]

end Legible

section Opened

variable {members : List (String × Json)}

/-- What was read from a file is legible in canonical form, if its doubles are read back. -/
theorem legible_canonical (h : FitsIn Number.InRange documentDepth (.object members))
    (hreals : ∀ x, .real x ∈ (Json.object members).numbers → (Number.real x).ReadsBack) :
    Legible (sortMembers (members.map fun m => (m.1, m.2.canonical))) := by
  have hfits : FitsIn Number.ReadsBack documentDepth (.object members) := by
    refine h.imp fun k hk hrange => ?_
    cases k with
    | whole value => exact readsBack_whole hrange
    | real x => exact hreals x hk
  refine ⟨(sorted_sortMembers _).nodup, fun e he => ?_⟩
  obtain ⟨m, hm, rfl⟩ := of_mem_canonicalMembers he
  have hpart : FitsIn Number.ReadsBack (documentDepth - 1) m.2 := hfits.part (List.mem_map_of_mem hm)
  exact ⟨canonical_canonical m.2, hpart.canonical⟩

/-- A file that holds an object is opened, and so is one that is not there. Of several members with one key the
last counts, in canonical form. -/
theorem FileStore.openAt_of_holds (path : String) {disk : Disk} (h : disk.Holds members)
    (hreals : ∀ x, .real x ∈ (Json.object members).numbers → (Number.real x).ReadsBack) :
    ∃ store, openAt path disk = .ok store ∧ store.path = path ∧ store.disk = disk ∧
      Legible store.entries ∧
      ∀ key, store.entries.get? key = (members.reverse.lookup key).map canonical := by
  have hopened {content : String} (hdisk : disk.read = .ok (some content))
      (hread : Json.read content = .ok (.object members)) :
      ∃ store, openAt path disk = .ok store ∧ store.path = path ∧ store.disk = disk ∧
        Legible store.entries ∧
        ∀ key, store.entries.get? key = (members.reverse.lookup key).map canonical := by
    refine ⟨_, openAt_of_read path hdisk hread, rfl, rfl,
      legible_canonical (fitsIn_of_readWithin hread) hreals, fun key => ?_⟩
    show (sortMembers _).lookup key = _
    rw [lookup_sortMembers, ← List.map_reverse, lookup_map_value]
  cases disk with
  | file content => exact hopened rfl h
  | readOnly content => exact hopened rfl h
  | vacant =>
    cases h
    exact ⟨{ path, disk := .vacant }, rfl, rfl, rfl, legible_nil, fun key => rfl⟩
  | unreachable =>
    cases h
    exact ⟨{ path, disk := .unreachable }, rfl, rfl, rfl, legible_nil, fun key => rfl⟩
  | directory => cases h

end Opened

/-! ## The settings that are saved -/

theorem legibleValue_ofName [DecidableEq α] (names : List (String × α)) (a : α) :
    LegibleValue (ofName names a) :=
  ⟨canonical_ofName names a, fitsIn_text _⟩

section Declared

variable {P : Number → Prop} {n : Nat}

/- A record of texts and truth values fits everywhere, and so does what is made of such records. -/

theorem fitsIn_encode_prop (p : ComponentProp) : FitsIn P (n + 1) p.encode := by
  refine fitsIn_of_parts (fun _ heq => nomatch heq) ?_
  intro part hpart
  simp only [ComponentProp.encode, parts, List.map_cons, List.map_nil, List.mem_cons, List.not_mem_nil,
    or_false] at hpart
  rcases hpart with rfl | rfl | rfl
  · exact fitsIn_bool _
  · exact fitsIn_text _
  · exact fitsIn_text _

theorem fitsIn_encode_component (c : UserComponent) : FitsIn P (n + 3) c.encode := by
  have hprops : FitsIn P (n + 2) (array (c.props.map ComponentProp.encode)) :=
    fitsIn_of_parts (fun _ heq => nomatch heq) (List.forall_mem_map.mpr fun p _ => fitsIn_encode_prop p)
  refine fitsIn_of_parts (fun _ heq => nomatch heq) ?_
  intro part hpart
  simp only [UserComponent.encode, parts, List.map_cons, List.map_nil, List.mem_cons, List.not_mem_nil,
    or_false] at hpart
  rcases hpart with rfl | rfl
  · exact fitsIn_text _
  · exact hprops

theorem fitsIn_encodeList (components : List UserComponent) :
    FitsIn P (n + 4) (UserComponent.encodeList components) :=
  fitsIn_of_parts (fun _ heq => nomatch heq)
    (List.forall_mem_map.mpr fun c _ => fitsIn_encode_component c)

end Declared

theorem legibleValue_encodeList (components : List UserComponent) :
    LegibleValue (UserComponent.encodeList components) :=
  ⟨UserComponent.canonical_encodeList components, fitsIn_encodeList components⟩

/-! ## Setting a value -/

/-- A file store whose file gives back what it keeps. -/
def FileStore.Reopens (store : FileStore) : Prop :=
  ∃ reopened, FileStore.openAt store.path store.disk = .ok reopened ∧
    ∀ key, reopened.entries.get? key = store.entries.get? key

/-- A value that was written is put into the entries, and the text in the file is theirs. -/
theorem FileStore.set_of_ok {store : FileStore} {key : String} {value : Json}
    (h : (Store.set store key value).2 = .ok ()) :
    (Store.set store key value).1 =
      { store with
        entries := store.entries.put key value.canonical
        disk := .file (textOf (store.entries.put key value.canonical)) } := by
  obtain ⟨path, disk, entries⟩ := store
  cases disk with
  | file text => rfl
  | vacant => rfl
  | readOnly text => cases h
  | directory => cases h
  | unreachable => cases h

/-- A file that is there can be written. -/
theorem FileStore.set_of_file {store : FileStore} {content : String} (h : store.disk = .file content)
    (key : String) (value : Json) :
    (Store.set store key value).2 = .ok () ∧ ∃ written, (Store.set store key value).1.disk = .file written := by
  obtain ⟨path, disk, entries⟩ := store
  cases h
  exact ⟨rfl, _, rfl⟩

theorem FileStore.reopens_set {store : FileStore} {key : String} {value : Json}
    (hentries : Legible store.entries) (hvalue : LegibleValue value)
    (h : (Store.set store key value).2 = .ok ()) :
    Legible (Store.set store key value).1.entries ∧ (Store.set store key value).1.Reopens := by
  have hput : Legible (store.entries.put key value.canonical) :=
    hentries.put key (hvalue.canonical.symm ▸ hvalue)
  rw [set_of_ok h]
  exact ⟨hput, hput.openAt_textOf store.path⟩

end Handoff.Settings
