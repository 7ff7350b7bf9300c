import CardIndex.Catalog.Publishing
import CardIndex.CommandLine.Arguments
import CardIndex.CommandLine.Report
import CardIndex.Dataset.Files
import CardIndex.Images
import CardIndex.Settings.Dotenv
import CardIndex.Settings.File

namespace CardIndex.CommandLine.Catalog

inductive Task
  | enrich (input output manifest : Option Path)
  | publish (dataset : Option Path) (table : Option String)
  | run (table : Option String)
  | fetchImages (manifest assetRoot : Option Path)
deriving DecidableEq

def enrichRules : List OptionRule := [⟨"input", false⟩, ⟨"output", false⟩, ⟨"manifest", false⟩]

def publishRules : List OptionRule := [⟨"dataset", false⟩, ⟨"table", true⟩]

def runRules : List OptionRule := [⟨"table", true⟩]

def fetchRules : List OptionRule := [⟨"manifest", false⟩, ⟨"asset-root", false⟩]

def taskNames : List String := ["enrich", "publish", "run", "fetch-images"]

/-- Help may be asked for on one of the tasks, or on help itself. -/
def helpOn : List String → Demand Task
  | [] => .help
  | [name] => if name ∈ taskNames ∨ name = "help" then .help else .misuse
  | _ => .misuse

def parse : List String → Demand Task
  | [] => .misuse
  | argument :: rest =>
    match argument with
    | "enrich" => (options enrichRules [] rest).map fun g =>
        .enrich (g.lookup "input") (g.lookup "output") (g.lookup "manifest")
    | "publish" => (options publishRules [] rest).map fun g => .publish (g.lookup "dataset") (g.lookup "table")
    | "run" => (options runRules [] rest).map fun g => .run (g.lookup "table")
    | "fetch-images" => (options fetchRules [] rest).map fun g =>
        .fetchImages (g.lookup "manifest") (g.lookup "asset-root")
    | "help" => helpOn rest
    | argument =>
      if asksForHelp argument then .help else if asksForVersion argument then .version else .misuse

/-- The settings with the flags of a task in front. -/
def Task.adjust (s : Settings) : Task → Settings
  | .enrich input output manifest =>
    { s with paths := { s.paths with
        raw := input.getD s.paths.raw
        dataset := output.getD s.paths.dataset
        manifest := manifest.getD s.paths.manifest } }
  | .publish dataset table =>
    { s with
      paths := { s.paths with dataset := dataset.getD s.paths.dataset }
      catalog := { s.catalog with table := table.or s.catalog.table } }
  | .run table => { s with catalog := { s.catalog with table := table.or s.catalog.table } }
  | .fetchImages manifest assetRoot =>
    { s with paths := { s.paths with
        manifest := manifest.getD s.paths.manifest
        assetRoot := assetRoot.getD s.paths.assetRoot } }

variable {m : Type → Type} [Monad m] [Disk m] [Clock m] [ImageSource m] [Environment m]

def enrich (s : Settings) : Session m Unit := do
  let summary ← Session.within "enrichment failed" (transform s.paths.raw s.paths.dataset s.paths.manifest)
  Session.say ("✅ Enriched " ++ toString summary.totalCards ++ " cards")
  Session.say ("   Dataset:  " ++ summary.datasetPath)
  Session.say ("   Manifest: " ++ summary.manifestPath ++ " (" ++ toString summary.withImage ++ " with images)")

def publish (s : Settings) : Session m Unit := do
  let table ← Session.settled s.requireTable
  let store ← Session.settled (Backend.openStore s.catalog.backend s.catalog.storeDir s.catalog.region)
  let report ← Session.within "publish failed" do
    let dataset ← readDataset (m := m) s.paths.dataset
    (Publisher.standard store.store table).publish dataset.cards
  Session.say ("✅ Uploaded " ++ toString report.uploaded ++ "/" ++ toString report.totalItems ++ " cards in " ++
    toString report.chunks ++ " chunks (" ++ toString report.retries ++ " retries)")

def fetchImages (s : Settings) : Session m Unit := do
  let report ← Session.plainly do
    let manifest ← readManifest (m := m) s.paths.manifest
    (ImageFetcher.mk s.paths.assetRoot (.ofMilliseconds s.images.delayMs)).fetchAll manifest
  Session.say ("✅ Images: " ++ toString report.downloaded ++ " downloaded, " ++ toString report.skipped ++
    " skipped, " ++ toString report.missingRemote ++ " without remote, " ++ toString report.failed ++ " failed")

/-- Does a task. A full run makes sure of the table before it spends time on the cards. -/
def perform (s : Settings) : Task → Session m Unit
  | .enrich _ _ _ => enrich s
  | .publish _ _ => publish s
  | .run _ => do
    let _ ← Session.settled s.requireTable
    Session.say "\n📥 Step 1: Enriching cards..."
    enrich s
    Session.say "\n📤 Step 2: Publishing catalog..."
    publish s
  | .fetchImages _ _ => fetchImages s

/-- The settings of the file and the environment. -/
def settings (added : List (String × String)) : Session m Settings := do
  let values ← (Settings.variableNames.mapM fun name => do
    pure (name, ← Dotenv.lookup (m := m) added name) : m (List (String × Option String)))
  Session.plainly (Settings.load fun name => (values.lookup name).join)

def usage : String :=
  "Usage: card_catalog enrich [--input PATH] [--output PATH] [--manifest PATH]\n" ++
  "       card_catalog publish [--dataset PATH] [--table NAME]\n" ++
  "       card_catalog run [--table NAME]\n" ++
  "       card_catalog fetch-images [--manifest PATH] [--asset-root PATH]\n"

/-- The whole program but for its log and its metrics: the directory `logs`, the lines that go there and to the
console, and the line with the error of a failed task. -/
def program (arguments : List String) : m Outcome := do
  let added ← Dotenv.load (m := m)
  match parse arguments with
  | .help => pure ⟨0, usage, ""⟩
  | .version => pure ⟨0, "card_catalog 0.1.0\n", ""⟩
  | .misuse => pure ⟨2, "", usage⟩
  | .perform task => Session.outcome do
    let s ← settings added
    perform (task.adjust s) task

end CardIndex.CommandLine.Catalog
