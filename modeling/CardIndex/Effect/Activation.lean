import CardIndex.Effect.Clauses

namespace CardIndex

/-- When a card's effect may be used. -/
inductive Timing
  | action
  | reaction
  | triggered
  | passive
deriving DecidableEq

/-- When a card's effect fires and what it does. -/
structure Activation where
  timing : Timing
  triggers : List String
  actions : List String
  requiresTarget : Bool
  reactionWindows : List String
  stateful : Bool
deriving DecidableEq

namespace Effect

/-- A marker in capitals decides before the word When. -/
def timing (effect : String) : Timing :=
  let text := effect.toList
  if Text.hasWord ["ACTION"] text then .action
  else if Text.hasWord ["REACTION"] text then .reaction
  else if Text.hasWord whenWords text then .triggered
  else .passive

def triggerWords : List String := ["When", "Whenever", "After", "Before", "While", "During"]

/-- A trigger word begins at the start of the text. -/
def opensPhrase (inWord : Bool) (text : List Char) : Bool :=
  triggerWords.any (·.toList = Text.wordAt inWord text)

def endsPhrase (c : Char) : Bool := c = '.' || c = ';'

/-- The phrases from a trigger word to the next full stop or semicolon, from left to right. The one that has
begun is held with its latest character first; trigger words inside it begin no other. -/
def phrases (begun : Option (List Char)) (inWord : Bool) : List Char → List (List Char)
  | [] => begun.toList.map List.reverse
  | c :: cs =>
    match begun with
    | some phrase =>
      if endsPhrase c then phrase.reverse :: phrases none false cs else phrases (some (c :: phrase)) false cs
    | none =>
      if opensPhrase inWord (c :: cs) then phrases (some [c]) false cs
      else phrases none (Text.isWordChar c) cs

def triggers (effect : String) : List String :=
  (phrases none false effect.toList).map fun phrase => String.ofList (Text.trim phrase)

/-- The verbs with the forms in which they count. -/
def verbForms : List (String × List String) := [
  ("kill", ["kill", "kills", "killed", "killing"]),
  ("buff", ["buff", "buffs", "buffed", "buffing"]),
  ("heal", ["heal", "heals", "healed", "healing"]),
  ("draw", ["draw", "draws", "drawn", "drawing", "drew"]),
  ("summon", ["summon", "summons", "summoned", "summoning"]),
  ("discard", ["discard", "discards", "discarded", "discarding"]),
  ("conquer", ["conquer", "conquers", "conquered", "conquering"]),
  ("transform", ["transform", "transforms", "transformed", "transforming"]),
  ("recover", ["recover", "recovers", "recovered", "recovering"])]

def actions (effect : String) : List String :=
  labels (Text.hasFoldedWord · effect.toList) verbForms

/-- The windows in which a reaction may be played; an apostrophe may be straight, curved or left out. -/
def windowParts : List (String × List String) := [
  ("showdown", ["showdown"]),
  ("opponent-turn", ["opponents turn", "opponent's turn", "opponent\u2019s turn"]),
  ("your-turn", ["your turn"])]

def reactionWindows (effect : String) : List String :=
  labels (·.any (Text.hasFoldedPart · effect.toList)) windowParts

def requiresTarget (effect : String) : Bool :=
  Text.hasFoldedWord ["target", "targets"] effect.toList

def isStateful (effect : String) : Bool :=
  Text.hasFoldedWord ["buff", "heal", "transform", "summon"] effect.toList

def activation (effect : String) : Activation where
  timing := timing effect
  triggers := triggers effect
  actions := actions effect
  requiresTarget := requiresTarget effect
  reactionWindows := reactionWindows effect
  stateful := isStateful effect

end Effect

end CardIndex
