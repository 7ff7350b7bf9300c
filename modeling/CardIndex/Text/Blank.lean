namespace CardIndex.Text

/-- The white space of Unicode: what is trimmed, and what may follow the end of a sentence. -/
def isBlank (c : Char) : Bool :=
  let n := c.toNat
  (0x9 ≤ n && n ≤ 0xD) || n = 0x20 || n = 0x85 || n = 0xA0 || n = 0x1680 ||
    (0x2000 ≤ n && n ≤ 0x200A) || n = 0x2028 || n = 0x2029 || n = 0x202F || n = 0x205F || n = 0x3000

def trimStart (cs : List Char) : List Char := cs.dropWhile isBlank

def trimEnd (cs : List Char) : List Char := (cs.reverse.dropWhile isBlank).reverse

/-- Takes the white space off both ends. -/
def trim (cs : List Char) : List Char := trimEnd (trimStart cs)

/-- The texts of the pieces, trimmed, without those that are blank. -/
def trimmedPieces (pieces : List (List Char)) : List (List Char) :=
  (pieces.map trim).filter (· ≠ [])

end CardIndex.Text

namespace String

/-- Takes the white space off both ends of a string. -/
def trimBlank (s : String) : String := ofList (CardIndex.Text.trim s.toList)

end String
