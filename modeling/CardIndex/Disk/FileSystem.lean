import CardIndex.Disk.Path
import CardIndex.Failure

namespace CardIndex

/-- The names that lead from the root to a place. -/
abbrev Place := List String

inductive Node
  | directory
  | file (content : ByteArray)

/-- Directories and files by their place. There are no links. -/
structure FileSystem where
  entries : List (Place × Node)
  workingDirectory : Place

namespace FileSystem

/-- What is at a place; the root is always a directory. -/
def find? (fs : FileSystem) (place : Place) : Option Node :=
  if place = [] then some .directory else fs.entries.lookup place

def remove (fs : FileSystem) (place : Place) : FileSystem :=
  { fs with entries := fs.entries.filter (·.1 ≠ place) }

def put (fs : FileSystem) (place : Place) (node : Node) : FileSystem :=
  { fs with entries := (place, node) :: (fs.remove place).entries }

def isDirectoryAt (fs : FileSystem) (place : Place) : Bool :=
  match fs.find? place with
  | some .directory => true
  | _ => false

/-- Only directories can be walked through. -/
def enter (fs : FileSystem) (place : Place) : Except IoError Place :=
  match fs.find? place with
  | some .directory => .ok place
  | some (.file _) => .error .notADirectory
  | none => .error .notFound

/-- Takes one step from a directory; what it leads to may be missing. -/
def step (fs : FileSystem) (place : Place) (part : String) : Except IoError Place := do
  let place ← fs.enter place
  if part = "." then .ok place
  else if part = ".." then .ok place.dropLast
  else .ok (place ++ [part])

def start (fs : FileSystem) (path : Path) : Place := if path.isAbsolute then [] else fs.workingDirectory

/-- The place that a path leads to, which need not exist. All but its last step do. -/
def locate (fs : FileSystem) (path : Path) : Except IoError Place :=
  if path = "" then .error .notFound else path.parts.foldlM fs.step (fs.start path)

/-- What a path leads to. -/
def follow (fs : FileSystem) (path : Path) : Except IoError Node := do
  let place ← fs.locate path
  let place ← if path.asksForDirectory then fs.enter place else .ok place
  match fs.find? place with
  | some node => .ok node
  | none => .error .notFound

def holds (fs : FileSystem) (path : Path) : Bool := (fs.follow path).isOk

def isDirectory (fs : FileSystem) (path : Path) : Bool :=
  match fs.follow path with
  | .ok .directory => true
  | _ => false

def read (fs : FileSystem) (path : Path) : Except IoError ByteArray := do
  match ← fs.follow path with
  | .directory => .error .isADirectory
  | .file content => .ok content

/-- The text of a file's content. -/
def decode (content : ByteArray) : Except IoError String :=
  match String.fromUTF8? content with
  | some text => .ok text
  | none => .error .invalidText

/-- Writes a file, which is made if it is missing. It is written as a whole, or nothing is changed: here no write breaks
off on its way, as it may where a disk is full or fails. -/
def write (fs : FileSystem) (path : Path) (content : ByteArray) : Except IoError FileSystem := do
  let place ← fs.locate path
  if path.asksForDirectory || fs.isDirectoryAt place then .error .isADirectory
  else .ok (fs.put place (.file content))

/-- Makes one directory. -/
def createDirectory (fs : FileSystem) (path : Path) : Except IoError FileSystem := do
  let place ← fs.locate path
  if (fs.find? place).isSome then .error .alreadyExists else .ok (fs.put place .directory)

/-- Changes the file system if the operation succeeds. -/
def change (operation : FileSystem → Except IoError FileSystem) : StateM FileSystem (Except IoError Unit) :=
  fun fs => match operation fs with
    | .ok fs => (.ok (), fs)
    | .error e => (.error e, fs)

/-- A failure to make a directory is none if it is there. -/
def excuse (path : Path) : Except IoError Unit → StateM FileSystem (Except IoError Unit)
  | .ok () => pure (.ok ())
  | .error e => do if (← get).isDirectory path then pure (.ok ()) else pure (.error e)

/-- Makes a directory, and before it those that it is in, as far as they are missing. Those made stay even if
a later one cannot be made. -/
def createDirectories : Nat → Path → StateM FileSystem (Except IoError Unit)
  | 0, _ => pure (.error .notFound)
  | depth + 1, path => do
    if path = "" then pure (.ok ())
    else match ← change (·.createDirectory path) with
      | .error .notFound =>
        match ← createDirectories depth (path.parent?.getD "") with
        | .ok () => excuse path (← change (·.createDirectory path))
        | .error e => pure (.error e)
      | result => excuse path result

/-- Makes a directory with all that it is in. A path has no more parents than parts. -/
def makeDirectories (path : Path) : StateM FileSystem (Except IoError Unit) :=
  createDirectories (path.parts.length + 2) path

/-- Gives a file another name. It takes the place of a file that has the name already. -/
def move (fs : FileSystem) (source target : Path) : Except IoError FileSystem := do
  let content ← fs.read source
  let origin ← fs.locate source
  let place ← fs.locate target
  if target.asksForDirectory || fs.isDirectoryAt place then .error .isADirectory
  else .ok ((fs.remove origin).put place (.file content))

end FileSystem

end CardIndex
