import CardIndex.Proofs.Json.Lexer
import CardIndex.Proofs.Json.Steps

namespace CardIndex.Json

/-- The text writes the token. -/
def Token.Written : Token → List Char → Prop
  | openArray, cs => cs = ['[']
  | closeArray, cs => cs = [']']
  | openObject, cs => cs = ['{']
  | closeObject, cs => cs = ['}']
  | colon, cs => cs = [':']
  | comma, cs => cs = [',']
  | null, cs => Tree.null.Written cs
  | bool b, cs => (Tree.bool b).Written cs
  | number n, cs => (Tree.number n).Written cs
  | string s, cs => (Tree.string s).Written cs

/-- A text with the tokens that are written in it. -/
inductive Spelled : List Char → List Token → Prop
  | nil : Spelled [] []
  | space {c : Char} {cs : List Char} {tokens : List Token} (hc : Lexer.isSpace c) (h : Spelled cs tokens) :
    Spelled (c :: cs) tokens
  | token {cs rest : List Char} {token : Token} {tokens : List Token} (htoken : token.Written cs)
    (h : Spelled rest tokens) : Spelled (cs ++ rest) (token :: tokens)

theorem Spelled.append {cs cs' : List Char} {tokens tokens' : List Token} (h : Spelled cs tokens)
    (h' : Spelled cs' tokens') : Spelled (cs ++ cs') (tokens ++ tokens') := by
  induction h with
  | nil => exact h'
  | space hc _ ih => exact .space hc ih
  | token htoken _ ih =>
    rw [List.append_assoc]
    exact .token htoken ih

theorem Spelled.append_token {done cs : List Char} {tokens : List Token} {token : Token}
    (h : Spelled done tokens.reverse) (htoken : token.Written cs) : Spelled (done ++ cs) (token :: tokens).reverse := by
  rw [List.reverse_cons]
  have hlast := h.append (.token htoken .nil)
  rwa [List.append_nil] at hlast

theorem PiecesText.concat {body cs : List Char} {pieces : List Lexer.Piece} {piece : Lexer.Piece}
    (h : PiecesText body pieces) (hpiece : PieceText cs piece) : PiecesText (body ++ cs) (pieces ++ [piece]) := by
  induction h with
  | nil =>
    rw [List.nil_append, List.nil_append, ← List.append_nil cs]
    exact .cons hpiece .nil
  | cons hfirst _ ih =>
    rw [List.append_assoc]
    exact .cons hfirst ih

theorem PiecesText.append_piece {body cs : List Char} {pieces : List Lexer.Piece} {piece : Lexer.Piece}
    (h : PiecesText body pieces.reverse) (hpiece : PieceText cs piece) :
    PiecesText (body ++ cs) (piece :: pieces).reverse := by
  rw [List.reverse_cons]
  exact h.concat hpiece

namespace Lexer

theorem written_wordToken? (letters : List Char) (token : Token) (h : wordToken? letters = some token) :
    token.Written letters := by
  unfold wordToken? at h
  split at h
  · obtain rfl := Option.some.inj h
    assumption
  split at h
  · obtain rfl := Option.some.inj h
    assumption
  split at h
  · obtain rfl := Option.some.inj h
    assumption
  · cases h

/-- What a mode remembers of the characters that are no token yet. -/
inductive Pending : Mode → List Char → Prop
  | between : Pending .between []
  | word (letters : List Char) : Pending (.word letters) letters.reverse
  | number (digits : List Char) : Pending (.number digits) digits.reverse
  | string {body : List Char} {pieces : List Piece} (h : PiecesText body pieces.reverse) :
    Pending (.string pieces) ('"' :: body)
  | escape {body : List Char} {pieces : List Piece} (h : PiecesText body pieces.reverse) :
    Pending (.escape pieces) ('"' :: body ++ ['\\'])
  | hex {body digits : List Char} {pieces : List Piece} {missing value : Nat} (h : PiecesText body pieces.reverse)
    (hmissing : 0 < missing) (hlength : digits.length + missing = 4) (hvalue : hexValue? digits = some value) :
    Pending (.hex pieces missing value) ('"' :: body ++ '\\' :: 'u' :: digits)

/-- A state says what stands in front of it: tokens, and then what is pending. -/
def Follows (s : State) (front : List Char) : Prop :=
  ∃ done pending, front = done ++ pending ∧ Spelled done s.tokens.reverse ∧ Pending s.mode pending

theorem follows_start : Follows start [] := ⟨[], [], rfl, .nil, .between⟩

theorem follows_between {done : List Char} {tokens : List Token} (h : Spelled done tokens.reverse) :
    Follows ⟨.between, tokens⟩ done :=
  ⟨done, [], (List.append_nil done).symm, h, .between⟩

theorem Mark.written {c : Char} {token : Token} (h : Mark c token) : token.Written [c] := by
  cases h <;> rfl

theorem follows_begins {done : List Char} {tokens : List Token} {c : Char} {s : State} (h : Begins tokens c s)
    (hdone : Spelled done tokens.reverse) : Follows s (done ++ [c]) := by
  cases h with
  | space hspace =>
    have hnext := hdone.append (.space hspace .nil)
    rw [List.append_nil] at hnext
    exact follows_between hnext
  | mark hmark => exact follows_between (hdone.append_token hmark.written)
  | quote => exact ⟨done, ['"'], rfl, hdone, .string .nil⟩
  | digit => exact ⟨done, [c], rfl, hdone, .number [c]⟩
  | letter => exact ⟨done, [c], rfl, hdone, .word [c]⟩

/-- What settles a state is the token that was pending. -/
theorem spelled_settle {s : State} {tokens : List Token} {front : List Char} (h : settle s = some tokens)
    (hs : Follows s front) : Spelled front tokens.reverse := by
  obtain ⟨done, pending, rfl, hdone, hpending⟩ := hs
  obtain ⟨mode, before⟩ := s
  cases hpending with
  | between =>
    obtain rfl := Option.some.inj h
    rwa [List.append_nil]
  | word letters =>
    obtain ⟨token, htoken, rfl⟩ := Option.map_eq_some_iff.1 h
    exact hdone.append_token (written_wordToken? _ _ htoken)
  | number digits =>
    obtain ⟨n, hn, rfl⟩ := Option.map_eq_some_iff.1 h
    exact hdone.append_token ((numberText_iff _ _).2 hn)
  | string | escape | hex => cases h

theorem hexValue?_append (digits : List Char) (c : Char) (value d : Nat) (h : hexValue? digits = some value)
    (hd : Text.hexDigit? c = some d) : hexValue? (digits ++ [c]) = some (value * 16 + d) := by
  rw [hexValue?] at h ⊢
  rw [List.foldlM_append, h]
  simp [hd]

theorem follows_steps {s s' : State} {front : List Char} {c : Char} (hs : Follows s front) (h : Steps s c s') :
    Follows s' (front ++ [c]) := by
  obtain ⟨done, pending, rfl, hdone, hpending⟩ := hs
  cases h with
  | begins hsettle hbegin =>
    exact follows_begins hbegin (spelled_settle hsettle ⟨done, pending, rfl, hdone, hpending⟩)
  | @letter letters =>
    cases hpending with
    | word => exact ⟨done, (c :: letters).reverse, by simp, hdone, .word _⟩
  | @digit digits =>
    cases hpending with
    | number => exact ⟨done, (c :: digits).reverse, by simp, hdone, .number _⟩
  | @close pieces =>
    cases hpending with
    | @string body _ hbody =>
      rw [List.append_assoc]
      exact follows_between (hdone.append_token ⟨body, pieces.reverse, rfl, hbody, rfl⟩)
  | slash =>
    cases hpending with
    | string hbody => exact ⟨done, _, List.append_assoc _ _ _, hdone, .escape hbody⟩
  | plain hcontrol hquote hslash =>
    cases hpending with
    | string hbody =>
      have hpiece := hbody.append_piece (.plain hcontrol hquote hslash)
      exact ⟨done, _, List.append_assoc _ _ _, hdone, .string hpiece⟩
  | @unit pieces =>
    cases hpending with
    | @escape body _ hbody =>
      have hhex : Pending (.hex pieces 4 0) ('"' :: body ++ '\\' :: 'u' :: []) := .hex hbody (by decide) rfl rfl
      exact ⟨done, _, by simp, hdone, hhex⟩
  | escape he =>
    cases hpending with
    | escape hbody =>
      have hpiece := hbody.append_piece (.escape ((mem_escapes_iff _ _).2 he))
      exact ⟨done, _, by simp, hdone, .string hpiece⟩
  | @hex pieces missing value d _ _ hmore hd =>
    cases hpending with
    | @hex body digits _ _ _ hbody hmissing hlength hvalue =>
      have hlonger : (digits ++ [c]).length + (missing - 1) = 4 := by
        rw [List.length_append, List.length_singleton]
        omega
      have hhex : Pending (.hex pieces (missing - 1) (value * 16 + d)) ('"' :: body ++ '\\' :: 'u' :: (digits ++ [c])) :=
        .hex hbody (by omega) hlonger (hexValue?_append digits c value d hvalue hd)
      exact ⟨done, _, by simp, hdone, hhex⟩
  | @lastHex _ value d _ _ hd =>
    cases hpending with
    | @hex _ digits _ _ _ hbody _ hlength hvalue =>
      have hdigits := hexValue?_append digits c value d hvalue hd
      have hpiece := hbody.append_piece (.unit (by simpa using hlength) hdigits)
      exact ⟨done, _, by simp, hdone, .string hpiece⟩

theorem follows_foldlM {s s' : State} {front text : List Char} (h : text.foldlM feed s = some s')
    (hs : Follows s front) : Follows s' (front ++ text) :=
  foldlM_feed_induction (motive := fun front s => Follows s front) (fun _ _ _ _ => follows_steps) front text hs h

/-- The tokens of a text are written in it. -/
theorem spelled_tokens? {text : List Char} {tokens : List Token} (h : tokens? text = some tokens) :
    Spelled text tokens := by
  obtain ⟨settled, hsettled, rfl⟩ := Option.map_eq_some_iff.1 h
  obtain ⟨s, hs, hsettle⟩ := Option.bind_eq_some_iff.1 hsettled
  exact spelled_settle hsettle (follows_foldlM hs follows_start)

end Lexer

end CardIndex.Json
