/-
# Handoff.Settings.Config — what one generation runs with

A configuration says which unit, which dialects and which detection to use. It is resolved from three
layers: what a request asks for, what the store keeps, and the defaults. The markup dialect may be left
open; then it follows from the stylesheet. Detection is never kept in a store.
-/

import Handoff.Settings.Names
import Handoff.Settings.Store

namespace Handoff.Settings

open Json

/-! ## Keys -/

def unitKey : String := "unit-type"

def stylesheetKey : String := "css-style"

def componentsKey : String := "user-component-settings"

/-! ## Configurations -/

structure Config where
  unit : LengthUnit := .px
  stylesheet : Stylesheet.Dialect := .flat
  /-- Follows from the stylesheet if it is not set. -/
  markup : Option Markup.Dialect := none
  detection : Detection := .identify
  deriving DecidableEq, Inhabited

/-- The markup dialect of a configuration. -/
def Config.markupDialect (c : Config) : Markup.Dialect :=
  c.markup.getD c.stylesheet.markup

/-- What a single request asks for. -/
structure Overrides where
  unit : Option LengthUnit := none
  stylesheet : Option Stylesheet.Dialect := none
  markup : Option Markup.Dialect := none
  detection : Option Detection := none
  deriving DecidableEq, Inhabited

/-! ## Values -/

def Config.decode (j : Json) : Decoded Config := do
  let r ← asRecord 4 j
  return {
    unit := ← r.optional 0 "unit" .px (asName LengthUnit.names)
    stylesheet := ← r.optional 1 "stylesheet" .flat (asName Stylesheet.Dialect.names)
    markup := ← r.optional 2 "markup" none (asOption (asName Markup.Dialect.names))
    detection := ← r.optional 3 "detection" .identify (asName Detection.names) }

def Config.encode (c : Config) : Json :=
  .object [
    ("unit", ofName LengthUnit.names c.unit),
    ("stylesheet", ofName Stylesheet.Dialect.names c.stylesheet),
    ("markup", ofOption (ofName Markup.Dialect.names) c.markup),
    ("detection", ofName Detection.names c.detection)]

def Overrides.decode (j : Json) : Decoded Overrides := do
  let r ← asRecord 4 j
  return {
    unit := ← r.optional 0 "unit" none (asOption (asName LengthUnit.names))
    stylesheet := ← r.optional 1 "stylesheet" none (asOption (asName Stylesheet.Dialect.names))
    markup := ← r.optional 2 "markup" none (asOption (asName Markup.Dialect.names))
    detection := ← r.optional 3 "detection" none (asOption (asName Detection.names)) }

/-! ## Resolution -/

/-- The choice that was asked for, else the one that is kept, else the default. What was asked for is not
looked up in the store. -/
def choose [Store σ] (store : σ) (key : String) (asked : Option α) (decode : Json → Decoded α)
    (fallback : α) : Except StoreError α :=
  match asked with
  | some a => .ok a
  | none => return (← load store key decode).getD fallback

/-- The configuration of a request. -/
def Overrides.resolve [Store σ] (overrides : Overrides) (store : σ) : Except StoreError Config := do
  let unit ← choose store unitKey overrides.unit (asName LengthUnit.names) .px
  let stylesheet ←
    choose store stylesheetKey overrides.stylesheet (asName Stylesheet.Dialect.names) .flat
  return { unit, stylesheet, markup := overrides.markup
           detection := overrides.detection.getD .identify }

end Handoff.Settings
