namespace CardIndex

/-- A path as it is written. Nothing is simplified until the path is followed. -/
abbrev Path := String

namespace Path

def isAbsolute (p : Path) : Bool := p.toList.head? = some '/'

/-- The parts between slashes, of which empty ones mean nothing. -/
def parts (p : Path) : List String := ((p.toList.splitOnP (· = '/')).map String.ofList).filter (· ≠ "")

/-- The second path seen from the first. An absolute one stands for itself. -/
def join (base p : Path) : Path :=
  if isAbsolute p then p
  else if base.toList.getLast?.getD '/' = '/' then base ++ p
  else base ++ "/" ++ p

/-- The steps of a path, without dots that stay where they are; only a dot at the start counts as a step. -/
def steps (p : Path) : List String :=
  match parts p with
  | "." :: rest => (if isAbsolute p then [] else ["."]) ++ rest.filter (· ≠ ".")
  | all => all.filter (· ≠ ".")

/-- The path without its last step, if it has one. -/
def parent? (p : Path) : Option Path :=
  match (steps p).reverse with
  | [] => none
  | _ :: before => some ((if isAbsolute p then "/" else "") ++ "/".intercalate before.reverse)

/-- The file name without what follows its last dot. A dot at the start does not count. -/
def stemOf (name : List Char) : List Char :=
  let fileType := name.reverse.takeWhile (· ≠ '.')
  let stem := name.take (name.length - fileType.length - 1)
  if fileType.length = name.length ∨ stem = [] then name else stem

/-- The path with the last part of its file name, from the last dot on, replaced by the given one. If no more
than two dots are left, they name the directory above, which takes no file type. -/
def withFileType (p : Path) (fileType : String) : Path :=
  let name := ((p.toList.splitOnP (· = '/')).getLast?).getD []
  let stem := String.ofList (p.toList.take (p.toList.length - name.length) ++ stemOf name) ++ "."
  if stemOf name = ['.'] then stem else stem ++ fileType

/-- A path with a slash at its end, or with a last part that names no entry, can only be a directory. -/
def asksForDirectory (p : Path) : Bool :=
  p.toList.getLast? = some '/' || (parts p).getLast? = some "." || (parts p).getLast? = some ".."

end Path

end CardIndex
