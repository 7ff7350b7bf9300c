import CardIndex.Card.Basic
import CardIndex.Timestamp.Basic

namespace CardIndex

/-- All cards of a dump, with the time they were built and how many there are meant to be. -/
structure Dataset where
  generatedAt : Timestamp
  totalCards : Nat
  cards : List Card
deriving DecidableEq

/-- What is to be known of a card to fetch its image. -/
structure ManifestEntry where
  id : String
  name : Option String
  remote : Option String
  localPath : String
deriving DecidableEq

def Card.manifestEntry (c : Card) : ManifestEntry := ⟨c.id, c.name, c.assets.remote, c.assets.localPath⟩

namespace Dataset

def ofCards (now : Timestamp) (cards : List Card) : Dataset := ⟨now, cards.length, cards⟩

def manifest (d : Dataset) : List ManifestEntry := d.cards.map Card.manifestEntry

end Dataset

end CardIndex
