import CardIndex.Json.Printer
import CardIndex.Proofs.Json.Grammar

namespace CardIndex.Json.Tree

mutual

/-- The tree with every number as it is read again. -/
def reread : Tree → Tree
  | null => null
  | bool b => bool b
  | number n => number n.reread
  | string s => string s
  | array items => array (rereadItems items)
  | object members => object (rereadMembers members)

def rereadItems : List Tree → List Tree
  | [] => []
  | t :: ts => t.reread :: rereadItems ts

def rereadMembers : List (Option String × Tree) → List (Option String × Tree)
  | [] => []
  | (name, t) :: ms => (name, t.reread) :: rereadMembers ms

end

theorem rereadItems_eq (items : List Tree) : rereadItems items = items.map reread := by
  induction items with
  | nil => rfl
  | cons t ts ih => rw [rereadItems, ih, List.map_cons]

theorem rereadMembers_eq (members : List (Option String × Tree)) :
    rereadMembers members = members.map fun (name, t) => (name, t.reread) := by
  induction members with
  | nil => rfl
  | cons m ms ih => rw [rereadMembers, ih, List.map_cons]

end CardIndex.Json.Tree

namespace CardIndex.Json.Printer

open Lexer

theorem hexDigit?_hexChar (n : Nat) (h : n < 16) : Text.hexDigit? (Printer.hexChar n) = some n := by
  have hall : ∀ m < 16, Text.hexDigit? (Printer.hexChar m) = some m := by decide
  exact hall n h

/-- What the printer writes for a character is a piece that spells it. -/
theorem exists_piece (c : Char) : ∃ piece : Piece,
    PieceText (Printer.escape c) piece ∧ ∀ pieces, spell (piece :: pieces) = (spell pieces).map (c :: ·) := by
  unfold Printer.escape
  split
  · rename_i h; exact ⟨.char '"', .escape (by decide), fun _ => by rw [h]; rfl⟩
  split
  · rename_i h; exact ⟨.char '\\', .escape (by decide), fun _ => by rw [h]; rfl⟩
  split
  · rename_i h; exact ⟨.char '\x08', .escape (by decide), fun _ => by rw [h]; rfl⟩
  split
  · rename_i h; exact ⟨.char '\x0C', .escape (by decide), fun _ => by rw [h]; rfl⟩
  split
  · rename_i h; exact ⟨.char '\n', .escape (by decide), fun _ => by rw [h]; rfl⟩
  split
  · rename_i h; exact ⟨.char '\r', .escape (by decide), fun _ => by rw [h]; rfl⟩
  split
  · rename_i h; exact ⟨.char '\t', .escape (by decide), fun _ => by rw [h]; rfl⟩
  split
  · rename_i hcontrol
    have hunit : c.toNat / 16 * 16 + c.toNat % 16 = c.toNat := by omega
    have hhigh := hexDigit?_hexChar (c.toNat / 16) (by omega)
    have hlow := hexDigit?_hexChar (c.toNat % 16) (by omega)
    have hzero : Text.hexDigit? '0' = some 0 := by decide
    refine ⟨.unit c.toNat, .unit rfl (by simp [hexValue?, hhigh, hlow, hzero, hunit]), fun pieces => ?_⟩
    conv => lhs; unfold spell
    simp only [if_neg (show ¬ (0xD800 ≤ c.toNat ∧ c.toNat < 0xE000) by omega), Char.ofNat_toNat]
  · rename_i hquote hslash _ _ _ _ _ hplain
    exact ⟨.char c, .plain (Nat.not_lt.1 hplain) hquote hslash, fun _ => rfl⟩

theorem exists_pieces (text : List Char) : ∃ pieces : List Piece,
    PiecesText (text.flatMap Printer.escape) pieces ∧ spell pieces = some text := by
  induction text with
  | nil => exact ⟨[], .nil, rfl⟩
  | cons c cs ih =>
    obtain ⟨piece, hpiece, hspell⟩ := exists_piece c
    obtain ⟨pieces, hrest, htext⟩ := ih
    exact ⟨piece :: pieces, .cons hpiece hrest, by rw [hspell, htext]; rfl⟩

theorem literalText_literal (s : Option String) : LiteralText (Printer.literal s) s := by
  cases s with
  | none =>
    have hlone : PieceText ['\\', 'u', 'd', '8', '0', '0'] (.unit 0xD800) := .unit rfl (by decide)
    exact ⟨_, _, rfl, .cons hlone .nil, rfl⟩
  | some s =>
    obtain ⟨pieces, hpieces, hspell⟩ := exists_pieces s.toList
    exact ⟨_, pieces, rfl, hpieces, by rw [hspell, Option.map_some, String.ofList_toList]⟩

mutual

theorem written_compact : (t : Tree) → t.reread.Written (compact t)
  | .null => rfl
  | .bool true => rfl
  | .bool false => rfl
  | .number n => numberText_text n
  | .string s => literalText_literal s
  | .array items => ⟨compactItems items, rfl, written_compactItems items⟩
  | .object members => ⟨compactMembers members, rfl, written_compactMembers members⟩

theorem written_compactItems : (items : List Tree) → Tree.ItemsWritten (Tree.rereadItems items) (compactItems items)
  | [] => spaces_nil
  | [t] => .of_kind (written_compact t)
  | t :: t' :: ts =>
    ⟨compact t, compactItems (t' :: ts), rfl, .of_kind (written_compact t), written_compactItems (t' :: ts)⟩

theorem written_compactMembers : (members : List (Option String × Tree)) →
    Tree.MembersWritten (Tree.rereadMembers members) (compactMembers members)
  | [] => spaces_nil
  | [(name, t)] =>
    ⟨literal name, compact t, rfl, .of_kind (literalText_literal name), .of_kind (written_compact t)⟩
  | (name, t) :: m :: ms =>
    ⟨literal name, compact t, compactMembers (m :: ms), by simp [compactMembers], .of_kind (literalText_literal name),
      .of_kind (written_compact t), written_compactMembers (m :: ms)⟩

end

theorem spaces_newLine (depth : Nat) : Spaces (newLine depth) := by
  refine .cons (by decide) fun c hc => ?_
  rw [List.eq_of_mem_replicate hc]
  decide

/-- A value or a name on a line of its own. -/
theorem spaced_line {kind : List Char → Prop} {body back : List Char} (depth : Nat) (h : kind body)
    (hback : Spaces back) : Spaced kind (newLine depth ++ body ++ back) :=
  ⟨newLine depth, body, back, List.append_assoc _ _ _, spaces_newLine depth, h, hback⟩

/-- A blank stands between a name and its value. -/
theorem spaced_value {kind : List Char → Prop} {body back : List Char} (h : kind body) (hback : Spaces back) :
    Spaced kind (' ' :: body ++ back) :=
  ⟨[' '], body, back, rfl, .cons (by decide) spaces_nil, h, hback⟩

mutual

theorem written_pretty (depth : Nat) : (t : Tree) → t.reread.Written (pretty depth t)
  | .null => rfl
  | .bool true => rfl
  | .bool false => rfl
  | .number n => numberText_text n
  | .string s => literalText_literal s
  | .array [] => ⟨[], rfl, spaces_nil⟩
  | .array (t :: ts) =>
    ⟨prettyItems (depth + 1) (t :: ts) ++ newLine depth, rfl,
      written_prettyItems (depth + 1) (spaces_newLine depth) (t :: ts)⟩
  | .object [] => ⟨[], rfl, spaces_nil⟩
  | .object (m :: ms) =>
    ⟨prettyMembers (depth + 1) (m :: ms) ++ newLine depth, rfl,
      written_prettyMembers (depth + 1) (spaces_newLine depth) (m :: ms)⟩

theorem written_prettyItems (depth : Nat) {back : List Char} (hback : Spaces back) : (items : List Tree) →
    Tree.ItemsWritten (Tree.rereadItems items) (prettyItems depth items ++ back)
  | [] => hback
  | [t] => spaced_line depth (written_pretty depth t) hback
  | t :: t' :: ts =>
    ⟨newLine depth ++ pretty depth t ++ [], prettyItems depth (t' :: ts) ++ back, by simp [prettyItems],
      spaced_line depth (written_pretty depth t) spaces_nil, written_prettyItems depth hback (t' :: ts)⟩

theorem written_prettyMembers (depth : Nat) {back : List Char} (hback : Spaces back) :
    (members : List (Option String × Tree)) →
    Tree.MembersWritten (Tree.rereadMembers members) (prettyMembers depth members ++ back)
  | [] => hback
  | [(name, t)] =>
    ⟨newLine depth ++ literal name ++ [], ' ' :: pretty depth t ++ back, by simp [prettyMembers],
      spaced_line depth (literalText_literal name) spaces_nil, spaced_value (written_pretty depth t) hback⟩
  | (name, t) :: m :: ms =>
    ⟨newLine depth ++ literal name ++ [], ' ' :: pretty depth t ++ [], prettyMembers depth (m :: ms) ++ back,
      by simp [prettyMembers], spaced_line depth (literalText_literal name) spaces_nil,
      spaced_value (written_pretty depth t) spaces_nil, written_prettyMembers depth hback (m :: ms)⟩

end

end CardIndex.Json.Printer
