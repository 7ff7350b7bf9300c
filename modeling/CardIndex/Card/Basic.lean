import CardIndex.Binary64.Basic
import CardIndex.Cost
import CardIndex.Effect.Activation

namespace CardIndex

/-- Where a card's image comes from and where it is kept. -/
structure Assets where
  remote : Option String
  localPath : String
deriving DecidableEq

structure Pricing where
  price : Option Binary64
  foilPrice : Option Binary64
  currency : String
deriving DecidableEq

structure References where
  marketUrl : Option String
  source : String
deriving DecidableEq

/-- A card with everything that is derived from its raw cells. -/
structure Card where
  id : String
  slug : String
  name : Option String
  kind : Option String
  rarity : Option String
  setName : Option String
  colors : List String
  cost : Cost
  might : Option Binary64
  tags : List String
  effect : String
  flavor : Option String
  keywords : List String
  activation : Activation
  rules : List Clause
  assets : Assets
  pricing : Pricing
  references : References
deriving DecidableEq

end CardIndex
