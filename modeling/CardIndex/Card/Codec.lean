import CardIndex.Card.Basic
import CardIndex.Json.Fields
import CardIndex.Json.Printer
import CardIndex.Sha256

namespace CardIndex

open Json (Tree)
open Json.Tree

namespace Timing

def label : Timing → String
  | action => "action"
  | reaction => "reaction"
  | triggered => "triggered"
  | passive => "passive"

def ofLabel? (s : String) : Option Timing :=
  [action, reaction, triggered, passive].find? fun t => t.label = s

def toTree (t : Timing) : Tree := text t.label

/-- The label, or an object with null as its one member, of that name. -/
def ofTree? : Tree → Option Timing
  | .string (some s) => ofLabel? s
  | .object [(some s, .null)] => ofLabel? s
  | _ => none

end Timing

namespace Cost

def toTree (c : Cost) : Tree := record [
  ("energy", optional natural c.energy),
  ("powerSymbols", list text c.powerSymbols),
  ("raw", optional text c.raw)]

def ofTree? (t : Tree) : Option Cost := do
  let fields ← t.fields? ["energy", "powerSymbols", "raw"]
  some {
    energy := ← fields.nullable "energy" natural?
    powerSymbols := ← fields.required "powerSymbols" (list? text?)
    raw := ← fields.nullable "raw" text? }

end Cost

namespace Activation

def toTree (a : Activation) : Tree := record [
  ("timing", a.timing.toTree),
  ("triggers", list text a.triggers),
  ("actions", list text a.actions),
  ("requiresTarget", bool a.requiresTarget),
  ("reactionWindows", list text a.reactionWindows),
  ("stateful", bool a.stateful)]

def ofTree? (t : Tree) : Option Activation := do
  let fields ← t.fields? ["timing", "triggers", "actions", "requiresTarget", "reactionWindows", "stateful"]
  some {
    timing := ← fields.required "timing" Timing.ofTree?
    triggers := ← fields.required "triggers" (list? text?)
    actions := ← fields.required "actions" (list? text?)
    requiresTarget := ← fields.required "requiresTarget" bool?
    reactionWindows := ← fields.required "reactionWindows" (list? text?)
    stateful := ← fields.required "stateful" bool? }

end Activation

namespace Clause

def toTree (c : Clause) : Tree := record [
  ("id", Tree.text c.id),
  ("text", Tree.text c.text),
  ("tags", list Tree.text c.tags)]

def ofTree? (t : Tree) : Option Clause := do
  let fields ← t.fields? ["id", "text", "tags"]
  some {
    id := ← fields.required "id" Tree.text?
    text := ← fields.required "text" Tree.text?
    tags := ← fields.required "tags" (list? Tree.text?) }

end Clause

namespace Assets

def toTree (a : Assets) : Tree := record [
  ("remote", optional text a.remote),
  ("localPath", text a.localPath)]

def ofTree? (t : Tree) : Option Assets := do
  let fields ← t.fields? ["remote", "localPath"]
  some {
    remote := ← fields.nullable "remote" text?
    localPath := ← fields.required "localPath" text? }

end Assets

namespace Pricing

def toTree (p : Pricing) : Tree := record [
  ("price", optional binary64 p.price),
  ("foilPrice", optional binary64 p.foilPrice),
  ("currency", text p.currency)]

def ofTree? (t : Tree) : Option Pricing := do
  let fields ← t.fields? ["price", "foilPrice", "currency"]
  some {
    price := ← fields.nullable "price" binary64?
    foilPrice := ← fields.nullable "foilPrice" binary64?
    currency := ← fields.required "currency" text? }

end Pricing

namespace References

def toTree (r : References) : Tree := record [
  ("marketUrl", optional text r.marketUrl),
  ("source", text r.source)]

def ofTree? (t : Tree) : Option References := do
  let fields ← t.fields? ["marketUrl", "source"]
  some {
    marketUrl := ← fields.nullable "marketUrl" text?
    source := ← fields.required "source" text? }

end References

namespace Card

def fieldNames : List String := [
  "id", "slug", "name", "type", "rarity", "setName", "colors", "cost", "might", "tags", "effect", "flavor",
  "keywords", "activation", "rules", "assets", "pricing", "references"]

def toTree (c : Card) : Tree := record [
  ("id", text c.id),
  ("slug", text c.slug),
  ("name", optional text c.name),
  ("type", optional text c.kind),
  ("rarity", optional text c.rarity),
  ("setName", optional text c.setName),
  ("colors", list text c.colors),
  ("cost", c.cost.toTree),
  ("might", optional binary64 c.might),
  ("tags", list text c.tags),
  ("effect", text c.effect),
  ("flavor", optional text c.flavor),
  ("keywords", list text c.keywords),
  ("activation", c.activation.toTree),
  ("rules", list Clause.toTree c.rules),
  ("assets", c.assets.toTree),
  ("pricing", c.pricing.toTree),
  ("references", c.references.toTree)]

def ofTree? (t : Tree) : Option Card := do
  let fields ← t.fields? fieldNames
  some {
    id := ← fields.required "id" text?
    slug := ← fields.required "slug" text?
    name := ← fields.nullable "name" text?
    kind := ← fields.nullable "type" text?
    rarity := ← fields.nullable "rarity" text?
    setName := ← fields.nullable "setName" text?
    colors := ← fields.required "colors" (list? text?)
    cost := ← fields.required "cost" Cost.ofTree?
    might := ← fields.nullable "might" binary64?
    tags := ← fields.required "tags" (list? text?)
    effect := ← fields.required "effect" text?
    flavor := ← fields.nullable "flavor" text?
    keywords := ← fields.required "keywords" (list? text?)
    activation := ← fields.required "activation" Activation.ofTree?
    rules := ← fields.required "rules" (list? Clause.ofTree?)
    assets := ← fields.required "assets" Assets.ofTree?
    pricing := ← fields.required "pricing" Pricing.ofTree?
    references := ← fields.required "references" References.ofTree? }

/-- The digest of a card's compact JSON text, which changes with any of its fields. -/
def contentHash (c : Card) : String := Sha256.hexDigest c.toTree.compactText

end Card

end CardIndex
