/-
# Handoff.Settings.File — settings kept in a file

The file holds one JSON object with a member for each setting. It is read when the store is opened and
written as a whole by every `set`. A path without a file is an empty store. The entries that were read
are sorted by key; keys that are new come behind them in the order in which they were set.

A `set` first changes the entries and then writes the file. If the writing fails, the entries stay
changed and the file stays as it was.
-/

import Handoff.Json.Printer
import Handoff.Settings.Store

namespace Handoff.Settings

/-! ## The disk -/

/-- What there is at the path of a settings file. -/
inductive Disk where
  /-- A file with its text. -/
  | file (text : String)
  /-- A file with its text that may be read but not written. -/
  | readOnly (text : String)
  /-- No file yet. -/
  | vacant
  | directory
  /-- No file, and no directory to put one into. -/
  | unreachable
  deriving DecidableEq, Inhabited

/-- The text at a path; none if there is nothing at it. -/
def Disk.read : Disk → Except FileError (Option String)
  | .file text => .ok (some text)
  | .readOnly text => .ok (some text)
  | .directory => .error .isDirectory
  | .vacant => .ok none
  | .unreachable => .ok none

/-- Writes a file, in place of one that is there. -/
def Disk.write (text : String) : Disk → Except FileError Disk
  | .file _ => .ok (.file text)
  | .readOnly _ => .error .permissionDenied
  | .vacant => .ok (.file text)
  | .directory => .error .isDirectory
  | .unreachable => .error .notFound

/-! ## The store -/

/-- A store that is kept in a file. -/
structure FileStore where
  path : String
  disk : Disk
  entries : Entries := []
  deriving Inhabited

namespace FileStore

/-- The entries that a text holds. -/
def entriesOf (path text : String) : Except StoreError Entries := do
  match (← (Json.read text).mapError .notJson).canonical with
  | .object members => return members
  | _ => .error (.notAnObject path)

/-- Opens the store at a path. -/
def openAt (path : String) (disk : Disk) : Except StoreError FileStore := do
  match ← disk.read.mapError .file with
  | some text => return { path, disk, entries := ← entriesOf path text }
  | none => return { path, disk }

/-- The text of the file for these entries. -/
def textOf (entries : Entries) : String :=
  (Json.object entries).indented 0

/-- Writes the entries to the file. -/
def flush (store : FileStore) : FileStore × Except StoreError Unit :=
  match store.disk.write (textOf store.entries) with
  | .ok disk => ({ store with disk }, .ok ())
  | .error cause => (store, .error (.file cause))

end FileStore

instance : Store FileStore where
  get store key := .ok (store.entries.get? key)
  set store key value := { store with entries := store.entries.put key value.canonical }.flush

end Handoff.Settings
