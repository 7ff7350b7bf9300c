import CardIndex.Dataset.Basic
import CardIndex.Disk.Basic

namespace CardIndex

/-- What a request for an image leads to. -/
inductive Reply
  | served (image : ByteArray)
  | refused
  | failed

/-- Where images come from. -/
class ImageSource (m : Type → Type) where
  fetch : (url : String) → m Reply

structure FetchReport where
  downloaded : Nat
  skipped : Nat
  missingRemote : Nat
  failed : Nat
deriving DecidableEq

namespace FetchReport

def empty : FetchReport := ⟨0, 0, 0, 0⟩

end FetchReport

/-- Fetches the images of a manifest into the asset root, with a pause after each request. -/
structure ImageFetcher where
  assetRoot : Path
  delay : Duration

namespace ImageFetcher

variable {m : Type → Type} [Monad m] [Disk m] [Clock m] [ImageSource m]

def target (f : ImageFetcher) (entry : ManifestEntry) : Path := f.assetRoot.join entry.localPath

def writeAsset (path : Path) (image : ByteArray) : Attempt m Unit := do
  match path.parent? with
  | some parent => Attempt.io (m := m) (Disk.makeDirectories parent)
  | none => pure ()
  Attempt.io (m := m) (Disk.write path image)

/-- Requests one image and counts what came of it. A source that fails is counted too; only a file that
cannot be written ends the run. -/
def request (f : ImageFetcher) (entry : ManifestEntry) (url : String) (report : FetchReport) :
    Attempt m FetchReport := do
  let report ← match ← (ImageSource.fetch url : m Reply) with
    | .served image => do
      writeAsset (m := m) (f.target entry) image
      pure { report with downloaded := report.downloaded + 1 }
    | .refused => pure { report with failed := report.failed + 1 }
    | .failed => pure { report with failed := report.failed + 1 }
  if f.delay.isZero then pure report
  else do
    Clock.pause (m := m) f.delay
    pure report

def fetchEntry (f : ImageFetcher) (report : FetchReport) (entry : ManifestEntry) : Attempt m FetchReport :=
  match entry.remote with
  | none => pure { report with missingRemote := report.missingRemote + 1 }
  | some url => do
    if ← (Disk.holds (f.target entry) : m Bool) then pure { report with skipped := report.skipped + 1 }
    else f.request entry url report

/-- Goes through the manifest in order. An image that is there already is left alone. -/
def fetchAll (f : ImageFetcher) (manifest : List ManifestEntry) : Attempt m FetchReport :=
  manifest.foldlM f.fetchEntry .empty

end ImageFetcher

end CardIndex
