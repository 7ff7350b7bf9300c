import CardIndex.Json.Value

namespace CardIndex

open Json (Value)

/-- Raw cards by columns: the names of the columns and rows of cells in their order. -/
structure Dump where
  names : List String
  rows : List (List Value)

/-- The cells of one row with the names of their columns, in column order. -/
abbrev Row := List (String × Value)

namespace Row

/-- Pairs the cells with the names. Missing cells are null and cells behind the last name are left out. -/
def ofCells (names : List String) (cells : List Value) : Row :=
  names.zipIdx.map fun (name, i) => (name, cells.getD i .null)

/-- The cell of the first alias that is a column; of columns with one name the first counts. -/
def get (row : Row) (aliases : List String) : Value :=
  (aliases.findSome? fun name => row.lookup name).getD .null

end Row

namespace Dump

/-- What keeps a JSON text from being a dump. -/
inductive Fault
  | missingArray (member : String)
  | malformed

def strings? (values : List Value) : Option (List String) :=
  values.mapM fun
    | .string s => some s
    | _ => none

def rows? (values : List Value) : Option (List (List Value)) :=
  values.mapM fun
    | .array cells => some cells
    | _ => none

/-- Reads a dump. Both arrays are looked for before any of their elements are looked at. -/
def ofText (s : String) : Except Fault Dump :=
  match Value.ofText? s with
  | none => .error .malformed
  | some v =>
    match v.member? "names", v.member? "data" with
    | some (.array names), some (.array data) =>
      match strings? names, rows? data with
      | some names, some rows => .ok ⟨names, rows⟩
      | _, _ => .error .malformed
    | some (.array _), _ => .error (.missingArray "data")
    | _, _ => .error (.missingArray "names")

end Dump

end CardIndex
