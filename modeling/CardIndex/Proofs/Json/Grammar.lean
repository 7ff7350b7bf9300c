import CardIndex.Proofs.Json.NumberText

namespace CardIndex.Json

/-- White space: nothing but blanks, tabs and ends of lines. -/
def Spaces (cs : List Char) : Prop := ∀ c ∈ cs, c ∈ [' ', '\t', '\n', '\r']

/-- A text of the given kind with white space around it. -/
def Spaced (kind : List Char → Prop) (cs : List Char) : Prop :=
  ∃ front body back, cs = front ++ (body ++ back) ∧ Spaces front ∧ kind body ∧ Spaces back

theorem spaces_nil : Spaces [] := by simp [Spaces]

theorem Spaces.cons {c : Char} {cs : List Char} (hc : c ∈ [' ', '\t', '\n', '\r']) (h : Spaces cs) :
    Spaces (c :: cs) := by
  intro d hd
  rcases List.mem_cons.1 hd with rfl | hd
  · exact hc
  · exact h d hd

theorem Spaced.of_kind {kind : List Char → Prop} {cs : List Char} (h : kind cs) : Spaced kind cs :=
  ⟨[], cs, [], (List.append_nil cs).symm, spaces_nil, h, spaces_nil⟩

/-- The escapes of one letter, each with the character that it stands for. -/
def escapes : List (Char × Char) :=
  [('"', '"'), ('\\', '\\'), ('/', '/'), ('b', '\x08'), ('f', '\x0C'), ('n', '\n'), ('r', '\r'), ('t', '\t')]

/-- The number that hexadecimal digits write, if all of them are. -/
def hexValue? (digits : List Char) : Option Nat :=
  digits.foldlM (fun value c => (Text.hexDigit? c).map (value * 16 + ·)) 0

/-- What a piece of a literal is written as: any character but controls, quotes and backslashes as it stands, an
escape of one letter, or a UTF-16 unit as four hexadecimal digits. -/
inductive PieceText : List Char → Lexer.Piece → Prop
  | plain {c : Char} (hcontrol : 0x20 ≤ c.toNat) (hquote : c ≠ '"') (hslash : c ≠ '\\') : PieceText [c] (.char c)
  | escape {c e : Char} (h : (c, e) ∈ escapes) : PieceText ['\\', c] (.char e)
  | unit {digits : List Char} {n : Nat} (hlength : digits.length = 4) (h : hexValue? digits = some n) :
    PieceText ('\\' :: 'u' :: digits) (.unit n)

inductive PiecesText : List Char → List Lexer.Piece → Prop
  | nil : PiecesText [] []
  | cons {cs rest : List Char} {piece : Lexer.Piece} {pieces : List Lexer.Piece} (h : PieceText cs piece)
    (hrest : PiecesText rest pieces) : PiecesText (cs ++ rest) (piece :: pieces)

/-- A string literal with the text that its pieces spell, if they spell any. -/
def LiteralText (cs : List Char) (s : Option String) : Prop :=
  ∃ body pieces, cs = '"' :: body ++ ['"'] ∧ PiecesText body pieces ∧ s = (Lexer.spell pieces).map String.ofList

namespace Tree

mutual

/-- The text writes the tree, from its first character to its last. -/
def Written : Tree → List Char → Prop
  | null, cs => cs = ['n', 'u', 'l', 'l']
  | bool true, cs => cs = ['t', 'r', 'u', 'e']
  | bool false, cs => cs = ['f', 'a', 'l', 's', 'e']
  | number n, cs => NumberText cs n
  | string s, cs => LiteralText cs s
  | array items, cs => ∃ body, cs = '[' :: body ++ [']'] ∧ ItemsWritten items body
  | object members, cs => ∃ body, cs = '{' :: body ++ ['}'] ∧ MembersWritten members body

/-- What stands between the brackets: a comma between two items, and none behind the last. -/
def ItemsWritten : List Tree → List Char → Prop
  | [], cs => Spaces cs
  | [t], cs => Spaced (Written t) cs
  | t :: ts, cs => ∃ front back, cs = front ++ ',' :: back ∧ Spaced (Written t) front ∧ ItemsWritten ts back

def MembersWritten : List (Option String × Tree) → List Char → Prop
  | [], cs => Spaces cs
  | [(name, t)], cs => ∃ front back, cs = front ++ ':' :: back ∧
    Spaced (LiteralText · name) front ∧ Spaced (Written t) back
  | (name, t) :: ms, cs => ∃ front middle back, cs = front ++ ':' :: (middle ++ ',' :: back) ∧
    Spaced (LiteralText · name) front ∧ Spaced (Written t) middle ∧ MembersWritten ms back

end

end Tree

end CardIndex.Json
