import CardIndex.Catalog.Item
import CardIndex.Entries

namespace CardIndex

/-- The items of a catalog table under their slugs. -/
abbrev Table := Entries Item

namespace Table

/-- Puts items under their slugs, one after the other, so that the last of a slug stays. -/
def putAll (table : Table) (items : List Item) : Table :=
  items.foldl (fun t item => Entries.put item.slug item t) table

def toTree (table : Table) : Json.Tree := Json.Tree.record (table.map fun (slug, item) => (slug, item.toTree))

/-- Adds the members of an object as entries; all names have to be texts and all values items. -/
def ofMembers? (sofar : Table) : List (Option String × Json.Tree) → Option Table
  | [] => some sofar
  | (name, t) :: ms => do
    let name ← name
    let item ← Item.ofTree? t
    ofMembers? (Entries.put name item sofar) ms

def ofTree? : Json.Tree → Option Table
  | .object members => ofMembers? [] members
  | _ => none

end Table

end CardIndex
