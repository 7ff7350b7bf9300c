import CardIndex.Dataset.Codec
import CardIndex.Disk.Basic
import CardIndex.Enrichment

namespace CardIndex

variable {m : Type → Type} [Monad m] [Disk m]

/-- The text of a file that has to be there. -/
def readInput (path : Path) : Attempt m String := do
  if ← (Disk.holds path : m Bool) then Attempt.io (m := m) (Disk.readText path)
  else throw (.missingInput path)

def readDump (path : Path) : Attempt m Dump := do
  match Dump.ofText (← readInput (m := m) path) with
  | .ok dump => pure dump
  | .error (.missingArray member) => throw (.malformedInput path (some member))
  | .error .malformed => throw (.malformedInput path none)

def readDataset (path : Path) : Attempt m Dataset := do
  match (Json.Tree.ofText? (← readInput (m := m) path)).bind Dataset.ofTree? with
  | some dataset => pure dataset
  | none => throw .json

def readManifest (path : Path) : Attempt m (List ManifestEntry) := do
  match (Json.Tree.ofText? (← readInput (m := m) path)).bind (Json.Tree.list? ManifestEntry.ofTree?) with
  | some entries => pure entries
  | none => throw .json

/-- Writes a JSON file in the pretty form, and makes the directories that it is in. -/
def writeJson (path : Path) (tree : Json.Tree) : Attempt m Unit := do
  match path.parent? with
  | some parent => if parent ≠ "" then Attempt.io (m := m) (Disk.makeDirectories parent)
  | none => pure ()
  Attempt.io (m := m) (Disk.write path tree.prettyText.toUTF8)

structure TransformSummary where
  totalCards : Nat
  withImage : Nat
  datasetPath : Path
  manifestPath : Path
deriving DecidableEq

/-- Reads a raw dump and writes the dataset and the manifest of its cards. -/
def transform [Clock m] (rawPath datasetPath manifestPath : Path) : Attempt m TransformSummary := do
  let dump ← readDump (m := m) rawPath
  let dataset := Dataset.ofCards (← Clock.now (m := m)) dump.cards
  writeJson (m := m) datasetPath dataset.toTree
  writeJson (m := m) manifestPath (Json.Tree.list ManifestEntry.toTree dataset.manifest)
  pure {
    totalCards := dataset.totalCards
    withImage := (dataset.manifest.filter (·.remote.isSome)).length
    datasetPath
    manifestPath }

end CardIndex
