import CardIndex.Catalog.Store
import CardIndex.Images
import CardIndex.Settings.Dotenv

namespace CardIndex

/-- All that a program can see or change. While it runs the calendar stands still, and the pauses that it asks
for are noted in their order; each request for an image is noted with the nanoseconds waited before it. -/
structure World where
  files : FileSystem
  tables : Tables
  environment : List (String × String)
  images : String → Reply
  requests : List (Nat × String)
  now : Timestamp
  pauses : List Duration

namespace World

/-- How many nanoseconds the pauses have lasted. -/
def waited (w : World) : Nat := w.pauses.foldl (fun total d => total + d.pauseLength) 0

/-- A file operation changes nothing but the files. -/
def onFiles {α : Type} (operation : StateM FileSystem α) : StateM World α := fun w =>
  let (a, files) := operation w.files
  (a, { w with files })

instance : Disk (StateM World) where
  currentDirectory := onFiles Disk.currentDirectory
  holds path := onFiles (Disk.holds path)
  read path := onFiles (Disk.read path)
  write path content := onFiles (Disk.write path content)
  makeDirectories path := onFiles (Disk.makeDirectories path)
  move source target := onFiles (Disk.move source target)

instance : Clock (StateM World) where
  now := fun w => (w.now, w)
  pause d := fun w => ((), { w with pauses := w.pauses ++ [d] })

instance : ImageSource (StateM World) where
  fetch url := fun w => (w.images url, { w with requests := w.requests ++ [(w.waited, url)] })

instance : Environment (StateM World) where
  get? name := fun w => (w.environment.lookup name, w)

instance : MonadStateOf Tables (StateM World) where
  get := fun w => (w.tables, w)
  set tables := fun w => ((), { w with tables })
  modifyGet f := fun w =>
    let (a, tables) := f w.tables
    (a, { w with tables })

end World

end CardIndex
