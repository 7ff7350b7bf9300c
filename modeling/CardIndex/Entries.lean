namespace CardIndex

/-- Values under names, in the order of the names and each name once. -/
abbrev Entries (α : Type) := List (String × α)

namespace Entries

/-- Puts a value under a name, in place of one that is there. -/
def put {α : Type} (name : String) (a : α) : Entries α → Entries α
  | [] => [(name, a)]
  | (other, b) :: es =>
    if name < other then (name, a) :: (other, b) :: es
    else if name = other then (name, a) :: es
    else (other, b) :: put name a es

def get? {α : Type} (es : Entries α) (name : String) : Option α := es.lookup name

end Entries

end CardIndex
