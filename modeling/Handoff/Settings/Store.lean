/-
# Handoff.Settings.Store — where settings are kept

A store answers what is kept under a key and takes a new value for a key; both can fail. A failed `set`
still returns a store, because what it left behind is part of its meaning. `load` reads a setting: a
value that does not fit its type counts as absent, so only the store itself can make it fail.

Two stores are provided here, both in memory; the second of them refuses some keys. A store that is kept
in a file is in `Handoff.Settings.File`.
-/

import Handoff.Json.Reader
import Handoff.Json.Record
import Handoff.Settings.Entries

namespace Handoff.Settings

/-! ## Failure -/

/-- Why a file could not be read or written. -/
inductive FileError where
  | notFound
  | permissionDenied
  | isDirectory
  deriving DecidableEq, Inhabited

/-- Why a store could not be opened, asked or changed. -/
inductive StoreError where
  | file (cause : FileError)
  /-- The text in the file is no JSON. -/
  | notJson (cause : Json.ReadError)
  /-- The file at this path holds some other value than an object. -/
  | notAnObject (path : String)
  | cannotRead (key : String)
  | cannotWrite (key : String)
  deriving Inhabited

def FileError.message : FileError → String
  | .notFound => "No such file or directory (os error 2)"
  | .permissionDenied => "Permission denied (os error 13)"
  | .isDirectory => "Is a directory (os error 21)"

def StoreError.message : StoreError → String
  | .file cause => "io error: " ++ cause.message
  | .notJson _ => "json error: the text is not a JSON document"
  | .notAnObject path => "storage error: " ++ path ++ " does not hold a JSON object"
  | .cannotRead key => "storage error: cannot read " ++ key
  | .cannotWrite key => "storage error: cannot write " ++ key

/-! ## Stores -/

/-- A store for settings. -/
class Store (σ : Type) where
  /-- The value kept under a key. -/
  get : σ → String → Except StoreError (Option Json)
  /-- The store after an attempt to keep a value under a key, and whether that succeeded. -/
  set : σ → String → Json → σ × Except StoreError Unit

/-- What is kept under a key, as far as it fits the type. -/
def load [Store σ] (store : σ) (key : String) (decode : Json → Json.Decoded α) :
    Except StoreError (Option α) := do
  let value ← Store.get store key
  return value.bind fun j => (decode j).toOption

/-! ## In memory -/

/-- A store that lasts as long as the program. It never fails. -/
structure MemoryStore where
  entries : Entries := []
  deriving Inhabited

instance : Store MemoryStore where
  get store key := .ok (store.entries.get? key)
  set store key value := (⟨store.entries.put key value.canonical⟩, .ok ())

/-- The store that is left when each of these keys is given its value in turn. -/
def MemoryStore.ofList (values : List (String × Json)) : MemoryStore :=
  values.foldl (fun store entry => (Store.set store entry.1 entry.2).1) {}

/-- A store in memory that cannot read some keys and cannot write some. -/
structure GuardedStore where
  entries : Entries := []
  unreadable : List String := []
  unwritable : List String := []
  deriving Inhabited

instance : Store GuardedStore where
  get store key :=
    if store.unreadable.contains key then .error (.cannotRead key)
    else .ok (store.entries.get? key)
  set store key value :=
    if store.unwritable.contains key then (store, .error (.cannotWrite key))
    else ({ store with entries := store.entries.put key value.canonical }, .ok ())

end Handoff.Settings
