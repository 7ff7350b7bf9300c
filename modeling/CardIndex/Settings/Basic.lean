import CardIndex.Catalog.Backend
import CardIndex.Text.Blank

namespace CardIndex

structure PathSettings where
  raw : Path
  dataset : Path
  manifest : Path
  assetRoot : Path
deriving DecidableEq

structure CatalogSettings where
  table : Option String
  region : String
  backend : String
  storeDir : Path
deriving DecidableEq

structure ImageSettings where
  delayMs : UInt64
  timeoutSeconds : UInt64
deriving DecidableEq

structure Settings where
  paths : PathSettings
  catalog : CatalogSettings
  images : ImageSettings
deriving DecidableEq

namespace Settings

def defaultDataset : Path := "data/cards.enriched.json"

/-- What holds where nothing else is said. -/
def standard : Settings where
  paths := {
    raw := "data/cards.raw.json"
    dataset := defaultDataset
    manifest := "data/card-images.json"
    assetRoot := "." }
  catalog := {
    table := none
    region := "local"
    backend := Backend.file
    storeDir := "data/catalog" }
  images := {
    delayMs := 250
    timeoutSeconds := 30 }

/-- A value that is not blank, trimmed. -/
def filled? (value : Option String) : Option String :=
  (value.map String.trimBlank).filter (· ≠ "")

/-- The variables that stand for settings. -/
def variableNames : List String := [
  "CATALOG_TABLE", "CATALOG_REGION", "CATALOG_STORE_BACKEND", "CATALOG_STORE_DIR", "CATALOG_RAW_PATH",
  "CATALOG_DATASET_PATH", "CATALOG_MANIFEST_PATH", "CATALOG_ASSET_ROOT"]

/-- Puts the variables of an environment in place of settings. Blank ones change nothing. -/
def override (s : Settings) (env : String → Option String) : Settings :=
  let get := fun name => filled? (env name)
  { s with
    catalog := {
      table := (get "CATALOG_TABLE").or s.catalog.table
      region := (get "CATALOG_REGION").getD s.catalog.region
      backend := (get "CATALOG_STORE_BACKEND").getD s.catalog.backend
      storeDir := (get "CATALOG_STORE_DIR").getD s.catalog.storeDir }
    paths := {
      raw := (get "CATALOG_RAW_PATH").getD s.paths.raw
      dataset := (get "CATALOG_DATASET_PATH").getD s.paths.dataset
      manifest := (get "CATALOG_MANIFEST_PATH").getD s.paths.manifest
      assetRoot := (get "CATALOG_ASSET_ROOT").getD s.paths.assetRoot } }

/-- The table to publish to, which has no default. -/
def requireTable (s : Settings) : Except SettingsFault String :=
  match filled? s.catalog.table with
  | some table => .ok table
  | none => .error .noTable

end Settings

end CardIndex
