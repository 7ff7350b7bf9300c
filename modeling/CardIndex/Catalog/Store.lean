import CardIndex.Catalog.Table
import CardIndex.Disk.Basic

namespace CardIndex

/-- Where items are kept. A write gives back the items that it did not take, and none if it took them all. -/
structure CatalogStore (m : Type → Type) where
  name : String
  batchWrite : (table : String) → List Item → Attempt m (List Item)

/-- The tables of a store in memory. -/
abbrev Tables := Entries Table

namespace Tables

def table (tables : Tables) (name : String) : Table := (Entries.get? tables name).getD []

/-- Writes items into a table, which is there from then on. -/
def write (tables : Tables) (name : String) (items : List Item) : Tables :=
  Entries.put name ((tables.table name).putAll items) tables

/-- The store that keeps its tables in the program's state. -/
def store {m : Type → Type} [Monad m] [MonadStateOf Tables m] : CatalogStore m where
  name := "in-memory"
  batchWrite table items := do
    modifyThe Tables (·.write table items)
    pure []

end Tables

/-- A store that keeps each table of a region in a JSON file of its own. -/
structure FileStore where
  root : Path
  region : String

namespace FileStore

def directory (s : FileStore) : Path := s.root.join s.region

def tablePath (s : FileStore) (table : String) : Path := s.directory.join (table ++ ".json")

variable {m : Type → Type} [Monad m] [Disk m]

/-- The items of a table; a missing file is an empty table. -/
def load (s : FileStore) (table : String) : Attempt m Table := do
  match ← (Disk.readText (s.tablePath table) : m _) with
  | .ok text =>
    match (Json.Tree.ofText? text).bind Table.ofTree? with
    | some items => pure items
    | none => throw .json
  | .error .notFound => pure []
  | .error e => throw (.io e)

/-- Writes the whole table to a file beside the table's and gives that the table's name, so that the table's
file is never half written. -/
def write (s : FileStore) (table : String) (items : List Item) : Attempt m (List Item) := do
  let entries ← s.load table
  Attempt.io (m := m) (Disk.makeDirectories s.directory)
  let path := s.tablePath table
  let draft := path.withFileType "json.tmp"
  Attempt.io (m := m) (Disk.write draft (Table.toTree (entries.putAll items)).prettyText.toUTF8)
  Attempt.io (m := m) (Disk.move draft path)
  pure []

def store (s : FileStore) : CatalogStore m where
  name := "json-file"
  batchWrite := s.write

end FileStore

end CardIndex
