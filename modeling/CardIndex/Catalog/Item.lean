import CardIndex.Dataset.Codec

namespace CardIndex

open Json (Tree)
open Json.Tree

/-- A card as the catalog keeps it, flat and under its slug. -/
structure Item where
  slug : String
  id : String
  name : Option String
  kind : Option String
  rarity : Option String
  setName : Option String
  colors : List String
  energy : Option Nat
  powerSymbols : List String
  costRaw : Option String
  might : Option Binary64
  tags : List String
  effect : String
  flavor : Option String
  keywords : List String
  timing : Timing
  triggers : List String
  actions : List String
  requiresTarget : Bool
  reactionWindows : List String
  stateful : Bool
  rules : List Clause
  imageRemote : Option String
  imageLocalPath : String
  price : Option Binary64
  foilPrice : Option Binary64
  currency : String
  marketUrl : Option String
  source : String
  contentHash : String
  lastIndexedAt : Timestamp
deriving DecidableEq

/-- The item of a card, stamped with the hash of its content and the time. -/
def Card.toItem (c : Card) (now : Timestamp) : Item where
  slug := c.slug
  id := c.id
  name := c.name
  kind := c.kind
  rarity := c.rarity
  setName := c.setName
  colors := c.colors
  energy := c.cost.energy
  powerSymbols := c.cost.powerSymbols
  costRaw := c.cost.raw
  might := c.might
  tags := c.tags
  effect := c.effect
  flavor := c.flavor
  keywords := c.keywords
  timing := c.activation.timing
  triggers := c.activation.triggers
  actions := c.activation.actions
  requiresTarget := c.activation.requiresTarget
  reactionWindows := c.activation.reactionWindows
  stateful := c.activation.stateful
  rules := c.rules
  imageRemote := c.assets.remote
  imageLocalPath := c.assets.localPath
  price := c.pricing.price
  foilPrice := c.pricing.foilPrice
  currency := c.pricing.currency
  marketUrl := c.references.marketUrl
  source := c.references.source
  contentHash := c.contentHash
  lastIndexedAt := now

namespace Item

def fieldNames : List String := [
  "slug", "id", "name", "type", "rarity", "setName", "colors", "energy", "powerSymbols", "costRaw", "might",
  "tags", "effect", "flavor", "keywords", "timing", "triggers", "actions", "requiresTarget", "reactionWindows",
  "stateful", "rules", "imageRemote", "imageLocalPath", "price", "foilPrice", "currency", "marketUrl", "source",
  "contentHash", "lastIndexedAt"]

def toTree (i : Item) : Tree := record [
  ("slug", text i.slug),
  ("id", text i.id),
  ("name", optional text i.name),
  ("type", optional text i.kind),
  ("rarity", optional text i.rarity),
  ("setName", optional text i.setName),
  ("colors", list text i.colors),
  ("energy", optional natural i.energy),
  ("powerSymbols", list text i.powerSymbols),
  ("costRaw", optional text i.costRaw),
  ("might", optional binary64 i.might),
  ("tags", list text i.tags),
  ("effect", text i.effect),
  ("flavor", optional text i.flavor),
  ("keywords", list text i.keywords),
  ("timing", i.timing.toTree),
  ("triggers", list text i.triggers),
  ("actions", list text i.actions),
  ("requiresTarget", bool i.requiresTarget),
  ("reactionWindows", list text i.reactionWindows),
  ("stateful", bool i.stateful),
  ("rules", list Clause.toTree i.rules),
  ("imageRemote", optional text i.imageRemote),
  ("imageLocalPath", text i.imageLocalPath),
  ("price", optional binary64 i.price),
  ("foilPrice", optional binary64 i.foilPrice),
  ("currency", text i.currency),
  ("marketUrl", optional text i.marketUrl),
  ("source", text i.source),
  ("contentHash", text i.contentHash),
  ("lastIndexedAt", i.lastIndexedAt.toTree)]

def ofTree? (t : Tree) : Option Item := do
  let fields ← t.fields? fieldNames
  some {
    slug := ← fields.required "slug" text?
    id := ← fields.required "id" text?
    name := ← fields.nullable "name" text?
    kind := ← fields.nullable "type" text?
    rarity := ← fields.nullable "rarity" text?
    setName := ← fields.nullable "setName" text?
    colors := ← fields.required "colors" (list? text?)
    energy := ← fields.nullable "energy" natural?
    powerSymbols := ← fields.required "powerSymbols" (list? text?)
    costRaw := ← fields.nullable "costRaw" text?
    might := ← fields.nullable "might" binary64?
    tags := ← fields.required "tags" (list? text?)
    effect := ← fields.required "effect" text?
    flavor := ← fields.nullable "flavor" text?
    keywords := ← fields.required "keywords" (list? text?)
    timing := ← fields.required "timing" Timing.ofTree?
    triggers := ← fields.required "triggers" (list? text?)
    actions := ← fields.required "actions" (list? text?)
    requiresTarget := ← fields.required "requiresTarget" bool?
    reactionWindows := ← fields.required "reactionWindows" (list? text?)
    stateful := ← fields.required "stateful" bool?
    rules := ← fields.required "rules" (list? Clause.ofTree?)
    imageRemote := ← fields.nullable "imageRemote" text?
    imageLocalPath := ← fields.required "imageLocalPath" text?
    price := ← fields.nullable "price" binary64?
    foilPrice := ← fields.nullable "foilPrice" binary64?
    currency := ← fields.required "currency" text?
    marketUrl := ← fields.nullable "marketUrl" text?
    source := ← fields.required "source" text?
    contentHash := ← fields.required "contentHash" text?
    lastIndexedAt := ← fields.required "lastIndexedAt" Timestamp.ofTree? }

end Item

end CardIndex
