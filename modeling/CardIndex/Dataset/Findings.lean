import CardIndex.Dataset.Basic

namespace CardIndex

/-- A way in which a dataset contradicts itself. -/
inductive Finding
  | wrongTotal (total held : Nat)
  | duplicateSlug (slug : String)
  | misnumberedClause (card found expected : String)
deriving DecidableEq

def Finding.message : Finding → String
  | wrongTotal total held =>
    "totalCards is " ++ toString total ++ " but the dataset holds " ++ toString held ++ " cards"
  | duplicateSlug slug => "duplicate slug '" ++ slug ++ "'"
  | misnumberedClause card found expected =>
    "card " ++ card ++ ": clause id '" ++ found ++ "' should be '" ++ expected ++ "'"

/-- The clauses whose ids do not tell the card and their place. -/
def Card.misnumbered (c : Card) : List Finding :=
  (c.rules.mapIdx fun i clause => (clause.id, c.id ++ "-clause-" ++ toString (i + 1))).filterMap fun (found, expected) =>
    if found = expected then none else some (.misnumberedClause c.id found expected)

/-- The findings on cards behind others with the given slugs. -/
def cardFindings (seen : List String) : List Card → List Finding
  | [] => []
  | c :: cs =>
    (if c.slug ∈ seen then [.duplicateSlug c.slug] else []) ++ c.misnumbered ++
      cardFindings (c.slug :: seen) cs

/-- All contradictions: the total first, then card by card. -/
def Dataset.findings (d : Dataset) : List Finding :=
  (if d.totalCards = d.cards.length then [] else [.wrongTotal d.totalCards d.cards.length]) ++
    cardFindings [] d.cards

end CardIndex
