import CardIndex.Settings.Basic
import CardIndex.Toml.Parser

namespace CardIndex.Settings

open Toml (Value)

def string? : Value → Option String
  | .string s => some s
  | _ => none

def natural? : Value → Option UInt64
  | .integer n => if 0 ≤ n ∧ n < UInt64.size then some (UInt64.ofNat n.toNat) else none
  | _ => none

/-- The values of a section's settings. A section may also be an array that lists them in order, and a date
stands for an empty section. -/
def section? (names : List String) : Option Value → Option (List (String × Value))
  | none => some []
  | some (.table members) => some members
  | some (.array items) => some (names.zip items)
  | some .date => some []
  | some _ => none

/-- The value given for a setting, or its default. -/
def given {α : Type} (members : List (String × Value)) (name : String) (value? : Value → Option α)
    (default : α) : Option α :=
  match members.lookup name with
  | none => some default
  | some v => value? v

/-- Reads the settings of a document. Sections and settings that it leaves out keep their defaults, and those
that are not known mean nothing. -/
def ofMembers? (members : List (String × Value)) : Option Settings := do
  let paths ← section? ["raw", "dataset", "manifest", "asset_root"] (members.lookup "paths")
  let catalog ← section? ["table", "region", "backend", "store_dir"] (members.lookup "catalog")
  let images ← section? ["delay_ms", "timeout_seconds"] (members.lookup "images")
  some {
    paths := {
      raw := ← given paths "raw" string? standard.paths.raw
      dataset := ← given paths "dataset" string? standard.paths.dataset
      manifest := ← given paths "manifest" string? standard.paths.manifest
      assetRoot := ← given paths "asset_root" string? standard.paths.assetRoot }
    catalog := {
      table := ← given catalog "table" (fun v => (string? v).map some) standard.catalog.table
      region := ← given catalog "region" string? standard.catalog.region
      backend := ← given catalog "backend" string? standard.catalog.backend
      storeDir := ← given catalog "store_dir" string? standard.catalog.storeDir }
    images := {
      delayMs := ← given images "delay_ms" natural? standard.images.delayMs
      timeoutSeconds := ← given images "timeout_seconds" natural? standard.images.timeoutSeconds } }

def ofText? (text : String) : Option Settings := (Toml.Parser.document? text).bind ofMembers?

/-- The file that settings are read from. -/
def filePath : Path := "catalog.toml"

variable {m : Type → Type} [Monad m] [Disk m]

/-- Reads the settings of a file; without the file all are defaults. -/
def ofFile (path : Path) : Attempt m Settings := do
  if ← (Disk.holds path : m Bool) then
    match ← (Disk.readText path : m (Except IoError String)) with
    | .error e => throw (.settings (.unreadable path e))
    | .ok text =>
      match ofText? text with
      | some settings => pure settings
      | none => throw .toml
  else pure standard

/-- The settings of the file with those of the environment in front. -/
def load (env : String → Option String) : Attempt m Settings := do
  pure ((← ofFile (m := m) filePath).override env)

end CardIndex.Settings
