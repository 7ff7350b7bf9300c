import CardIndex.Text.WordChar

namespace CardIndex.Text

/-- The lower-case ASCII letter that a letter counts as where case is ignored, if there is one. Beside the
capitals these are the long s and the Kelvin sign, the only others that fold onto ASCII. -/
def fold (c : Char) : Char :=
  if c = '\u017F' then 's' else if c = '\u212A' then 'k' else c.toLower

/-- The words of a text: its longest runs of word characters. -/
def words (cs : List Char) : List (List Char) :=
  (cs.splitOnP (!isWordChar ·)).filter (· ≠ [])

/-- The word that begins at the start of a text, empty if none does. `inWord` says that the character before
the text is part of a word. -/
def wordAt (inWord : Bool) (text : List Char) : List Char :=
  if inWord then [] else text.takeWhile isWordChar

/-- Somewhere in the text a word begins that meets the condition. -/
def anyWord (meets : List Char → Bool) (inWord : Bool) : List Char → Bool
  | [] => false
  | c :: cs => meets (wordAt inWord (c :: cs)) || anyWord meets (isWordChar c) cs

/-- One of the words is one of the forms, letter by letter. -/
def hasWord (forms : List String) (text : List Char) : Bool :=
  anyWord (fun w => forms.any (·.toList = w)) false text

/-- One of the words is one of the forms, whatever its case. -/
def hasFoldedWord (forms : List String) (text : List Char) : Bool :=
  anyWord (fun w => forms.any (·.toList = w.map fold)) false text

/-- One of the words starts with the stem, whatever its case. -/
def hasFoldedStem (stem : String) (text : List Char) : Bool :=
  anyWord (fun w => stem.toList.isPrefixOf (w.map fold)) false text

/-- The text has the given part at some place. -/
def hasPart (part : List Char) : List Char → Bool
  | [] => part.isEmpty
  | c :: cs => part.isPrefixOf (c :: cs) || hasPart part cs

/-- The text has the given part at some place, whatever the case. -/
def hasFoldedPart (part : String) (text : List Char) : Bool :=
  hasPart part.toList (text.map fold)

end CardIndex.Text
