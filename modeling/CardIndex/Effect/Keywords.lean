import CardIndex.Distinct
import CardIndex.Text.Word

namespace CardIndex.Effect

/-- What in an effect text calls for a keyword. -/
inductive Cue
  | word (forms : List String)
  | stem (stem : String)

/-- Case is ignored throughout. -/
def Cue.holds (text : List Char) : Cue → Bool
  | word forms => Text.hasFoldedWord forms text
  | stem s => Text.hasFoldedStem s text

def keywordCues : List (String × Cue) := [
  ("Action", .word ["action"]),
  ("Reaction", .word ["reaction"]),
  ("Showdown", .stem "showdown"),
  ("Conquer", .stem "conquer"),
  ("Gear", .word ["gear"]),
  ("Rune", .word ["rune", "runes"]),
  ("Heal", .stem "heal"),
  ("Buff", .stem "buff"),
  ("Draw", .stem "draw"),
  ("Kill", .stem "kill")]

/-- The labels whose condition holds, in the order of the table. -/
def labels {α : Type} (holds : α → Bool) (table : List (String × α)) : List String :=
  (table.filter fun entry => holds entry.2).map (·.1)

/-- The keywords that the effect text itself shows. -/
def detectedKeywords (effect : String) : List String := labels (Cue.holds effect.toList) keywordCues

/-- The colors, the tags and then the keywords of the effect, each once. -/
def keywords (colors tags : List String) (effect : String) : List String :=
  distinct ((colors ++ tags).filter (· ≠ "") ++ detectedKeywords effect)

end CardIndex.Effect
