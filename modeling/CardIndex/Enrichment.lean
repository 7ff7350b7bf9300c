import CardIndex.Card.Basic
import CardIndex.Cell
import CardIndex.Dump

namespace CardIndex

/-- Where the images of cards are kept, relative to the asset root. -/
structure AssetLayout where
  directory : String
  fileType : String

namespace AssetLayout

def standard : AssetLayout := ⟨"assets/cards", "webp"⟩

def isPathSafe (c : Char) : Bool := c.isAlphanum || c = '-' || c = '_'

/-- The part of the file name that comes from the card: every other character becomes a hyphen. -/
def stem (key : String) : String := key.map fun c => if isPathSafe c then c else '-'

def path (layout : AssetLayout) (key : String) : String :=
  layout.directory ++ "/" ++ stem key ++ "." ++ layout.fileType

end AssetLayout

namespace Card

def currency : String := "USD"

/-- Marks cards as coming from a dump. -/
def provenance : String := "card-dump"

def nameOfPosition (position : Nat) : String := "row-" ++ toString (position + 1)

/-- Builds a card from the raw cells of the row at a position, counted from zero. -/
def ofRow (row : Row) (position : Nat) : Card :=
  let id := (Cell.text? (row.get ["id"])).getD (nameOfPosition position)
  let slug := (Cell.text? (row.get ["slug"])).getD id
  let colors := Cell.list (row.get ["colors", "color"])
  let tags := Cell.list (row.get ["tags"])
  let effect := Cell.text (row.get ["effect", "text"])
  { id
    slug
    name := Cell.text? (row.get ["name"])
    kind := Cell.text? (row.get ["type", "card_type"])
    rarity := Cell.text? (row.get ["rarity"])
    setName := Cell.text? (row.get ["set_name", "set", "setName"])
    colors
    cost := Cost.ofText (Cell.text (row.get ["cost"]))
    might := Cell.number? (row.get ["might"])
    tags
    effect
    flavor := Cell.text? (row.get ["flavor", "flavor_text"])
    keywords := Effect.keywords colors tags effect
    activation := Effect.activation effect
    rules := Effect.clauses id effect
    assets := {
      remote := Cell.text? (row.get ["image", "image_url"])
      localPath := AssetLayout.standard.path slug }
    pricing := {
      price := Cell.number? (row.get ["price"])
      foilPrice := Cell.number? (row.get ["foil_price", "foilPrice"])
      currency }
    references := {
      marketUrl := Cell.text? (row.get ["url", "market_url"])
      source := provenance } }

end Card

/-- The cards of all rows, in row order. -/
def Dump.cards (dump : Dump) : List Card :=
  dump.rows.mapIdx fun i cells => Card.ofRow (Row.ofCells dump.names cells) i

end CardIndex
