import CardIndex.Toml.Scalar

namespace CardIndex.Toml

/-- How a table came to be: by a header of its own, as part of the path of a header, or by a dotted key. -/
inductive Origin
  | header
  | path
  | dotted
deriving DecidableEq

/-- What stands under a key; the latest table of an array of tables is the first. -/
inductive Entry
  | value (v : Value)
  | table (origin : Origin) (members : List (String × Entry))
  | tables (latest : List (String × Entry)) (earlier : List (List (String × Entry)))
deriving Inhabited

abbrev Members := List (String × Entry)

namespace Members

def set (ms : Members) (key : String) (e : Entry) : Members := ms.filter (·.1 ≠ key) ++ [(key, e)]

/-- Changes the table at the end of a path, and makes the tables on the way that are missing. A dotted key
may not lead into a table that has a header. -/
def changeAt (dotted : Bool) (change : Origin → Members → Option (Origin × Members)) :
    List String → Origin → Members → Option (Origin × Members)
  | [], origin, ms => change origin ms
  | key :: path, origin, ms =>
    match ms.lookup key with
    | none => do
      let (inner, entries) ← changeAt dotted change path (if dotted then .dotted else .path) []
      some (origin, ms.set key (.table inner entries))
    | some (.value _) => none
    | some (.table inner entries) =>
      if dotted && inner = .header then none
      else do
        let (inner, entries) ← changeAt dotted change path inner entries
        some (origin, ms.set key (.table inner entries))
    | some (.tables latest earlier) => do
      let (_, entries) ← changeAt dotted change path .header latest
      some (origin, ms.set key (.tables entries earlier))

/-- Adds a value under a key with a dotted path before it. No key is given twice, and a dotted path may end
only in a table that dotted keys have made. -/
def addDotted (path : List String) (key : String) (v : Value) :
    Origin → Members → Option (Origin × Members) :=
  changeAt true (fun origin ms =>
    if (origin = .dotted) = (path = []) || (ms.lookup key).isSome then none
    else some (origin, ms.set key (.value v))) path

/-- Opens the table of a header. It may be there already only as part of another header's path. -/
def openTable (key : String) (origin : Origin) (ms : Members) : Option (Origin × Members) :=
  match ms.lookup key with
  | none => some (origin, ms.set key (.table .header []))
  | some (.table .path entries) => some (origin, ms.set key (.table .header entries))
  | some _ => none

/-- Opens one more table of an array of tables. -/
def openRow (key : String) (origin : Origin) (ms : Members) : Option (Origin × Members) :=
  match ms.lookup key with
  | none => some (origin, ms.set key (.tables [] []))
  | some (.tables latest earlier) => some (origin, ms.set key (.tables [] (latest :: earlier)))
  | some _ => none

end Members

mutual

def Entry.toValue : Entry → Value
  | .value v => v
  | .table _ ms => .table (memberValues ms)
  | .tables latest earlier => .array ((rowValues earlier).reverse ++ [.table (memberValues latest)])

def memberValues : List (String × Entry) → List (String × Value)
  | [] => []
  | (key, e) :: ms => (key, e.toValue) :: memberValues ms

def rowValues : List (List (String × Entry)) → List Value
  | [] => []
  | ms :: rows => .table (memberValues ms) :: rowValues rows

end

/-- The document read so far, and the path of the table that statements add to. -/
structure Document where
  members : Members
  current : List String

namespace Document

def empty : Document := ⟨[], []⟩

def change (d : Document) (f : Origin → Members → Option (Origin × Members)) (path : List String) :
    Option Members :=
  (Members.changeAt false f path .header d.members).map (·.2)

/-- A statement `path.key = v`. -/
def assign (d : Document) (path : List String) (key : String) (v : Value) : Option Document :=
  (d.change (Members.addDotted path key v) d.current).map fun ms => { d with members := ms }

/-- A header `[path.key]`. -/
def header (d : Document) (path : List String) (key : String) : Option Document :=
  (d.change (Members.openTable key) path).map fun ms => ⟨ms, path ++ [key]⟩

/-- A header `[[path.key]]`. -/
def rowHeader (d : Document) (path : List String) (key : String) : Option Document :=
  (d.change (Members.openRow key) path).map fun ms => ⟨ms, path ++ [key]⟩

def toMembers (d : Document) : List (String × Value) := memberValues d.members

end Document

end CardIndex.Toml
