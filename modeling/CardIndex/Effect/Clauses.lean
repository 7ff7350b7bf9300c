import CardIndex.Effect.Keywords
import CardIndex.Text.Blank

namespace CardIndex

/-- A sentence of an effect text. -/
structure Clause where
  id : String
  text : String
  tags : List String
deriving DecidableEq

namespace Effect

def endsSentence (c : Char) : Bool := c = '.' || c = '!' || c = '?'

/-- Cuts a text at each newline, and after each mark that ends a sentence if white space follows. The white
space that is left at the start of a fragment is for trimming to take off. -/
def fragments : List Char → List (List Char)
  | [] => [[]]
  | c :: cs =>
    if c = '\n' then [] :: fragments cs
    else
      let cut := endsSentence c && (cs.head?.map Text.isBlank).getD false
      match fragments cs with
      | [] => [[c]]
      | f :: fs => if cut then [c] :: f :: fs else (c :: f) :: fs

/-- The sentences of an effect, trimmed, without empty ones. -/
def clauseTexts (effect : String) : List String :=
  (Text.trimmedPieces (fragments effect.toList)).map String.ofList

/-- The clause starts with the word, letter by letter. -/
def opensWith (word : String) (clause : List Char) : Bool :=
  clause.takeWhile Text.isWordChar = word.toList

def whenWords : List String := ["When", "Whenever"]

/-- What makes a clause carry a tag. -/
def clauseTags (clause : String) : List String :=
  let text := clause.toList
  labels id [
    ("action", opensWith "ACTION" text),
    ("reaction", opensWith "REACTION" text),
    ("trigger", Text.hasWord whenWords text),
    ("buff", Text.hasFoldedStem "buff" text),
    ("removal", Text.hasFoldedStem "kill" text),
    ("healing", Text.hasFoldedStem "heal" text)]

def clauseId (card : String) (n : Nat) : String := card ++ "-clause-" ++ toString n

/-- The clauses of a card's effect, numbered from one. -/
def clauses (card effect : String) : List Clause :=
  (clauseTexts effect).mapIdx fun i text => ⟨clauseId card (i + 1), text, clauseTags text⟩

end Effect

end CardIndex
