import CardIndex.Proofs.Json.Grammar

namespace CardIndex.Json.Lexer

/-- The text has these tokens and ends with the last of them complete, so that anything may follow. -/
def Closed (text : List Char) (tokens : List Token) : Prop :=
  ∀ ts, text.foldlM feed ⟨.between, ts⟩ = some ⟨.between, tokens.reverse ++ ts⟩

/-- The text has these tokens, where the last may be a word or number that the next character completes. -/
def Lexes (text : List Char) (tokens : List Token) : Prop :=
  ∀ ts, ∃ s, text.foldlM feed ⟨.between, ts⟩ = some s ∧ settle s = some (tokens.reverse ++ ts)

/-- A character that ends a word or number before it and is complete itself. -/
structure Marks (c : Char) (tokens : List Token) : Prop where
  not_lower : c.isLower = false
  not_numberChar : isNumberChar c = false
  begins : ∀ ts, begin c ts = some ⟨.between, tokens ++ ts⟩
  single : tokens.reverse = tokens

theorem closed_nil : Closed [] [] := fun _ => rfl

theorem Closed.lexes {text : List Char} {tokens : List Token} (h : Closed text tokens) :
    Lexes text tokens :=
  fun ts => ⟨_, h ts, rfl⟩

theorem Closed.append {text text' : List Char} {tokens tokens' : List Token} (h : Closed text tokens)
    (h' : Closed text' tokens') : Closed (text ++ text') (tokens ++ tokens') := by
  intro ts
  rw [List.foldlM_append, h ts, List.reverse_append, List.append_assoc]
  exact h' _

theorem Closed.append_lexes {text text' : List Char} {tokens tokens' : List Token}
    (h : Closed text tokens) (h' : Lexes text' tokens') : Lexes (text ++ text') (tokens ++ tokens') := by
  intro ts
  obtain ⟨s, hs, hsettle⟩ := h' (tokens.reverse ++ ts)
  refine ⟨s, ?_, ?_⟩
  · rw [List.foldlM_append, h ts]
    exact hs
  · rw [hsettle, List.reverse_append, List.append_assoc]

/-- A state that settles on its tokens takes a mark as if nothing were pending. -/
theorem Marks.feed {c : Char} {tokens ts : List Token} {s : State} (h : Marks c tokens)
    (hs : settle s = some ts) : feed s c = some ⟨.between, tokens ++ ts⟩ := by
  obtain ⟨mode, before⟩ := s
  cases mode with
  | between =>
    obtain rfl := Option.some.inj hs
    exact h.begins before
  | word letters =>
    simp only [Lexer.feed, h.not_lower, Bool.false_eq_true, if_false]
    rw [hs, Option.bind_some, h.begins]
  | number digits =>
    simp only [Lexer.feed, h.not_numberChar, Bool.false_eq_true, if_false]
    rw [hs, Option.bind_some, h.begins]
  | string pieces => cases hs
  | escape pieces => cases hs
  | hex pieces missing value => cases hs

theorem Lexes.append_mark {text : List Char} {tokens tokens' : List Token} {c : Char}
    (h : Lexes text tokens) (hc : Marks c tokens') : Closed (text ++ [c]) (tokens ++ tokens') := by
  intro ts
  obtain ⟨s, hs, hsettle⟩ := h ts
  rw [List.foldlM_append, hs]
  simp only [Option.bind_eq_bind, Option.bind_some, List.foldlM_cons, List.foldlM_nil, hc.feed hsettle,
    Option.pure_def, List.reverse_append, hc.single, List.append_assoc]

theorem Marks.closed {c : Char} {tokens : List Token} (h : Marks c tokens) : Closed [c] tokens :=
  closed_nil.lexes.append_mark h

theorem marks_openArray : Marks '[' [.openArray] := ⟨by decide, by decide, fun _ => rfl, rfl⟩

theorem marks_closeArray : Marks ']' [.closeArray] := ⟨by decide, by decide, fun _ => rfl, rfl⟩

theorem marks_openObject : Marks '{' [.openObject] := ⟨by decide, by decide, fun _ => rfl, rfl⟩

theorem marks_closeObject : Marks '}' [.closeObject] := ⟨by decide, by decide, fun _ => rfl, rfl⟩

theorem marks_colon : Marks ':' [.colon] := ⟨by decide, by decide, fun _ => rfl, rfl⟩

theorem marks_comma : Marks ',' [.comma] := ⟨by decide, by decide, fun _ => rfl, rfl⟩

theorem marks_space {c : Char} (h : c ∈ [' ', '\t', '\n', '\r']) : Marks c [] := by
  simp only [List.mem_cons, List.not_mem_nil, or_false] at h
  rcases h with rfl | rfl | rfl | rfl <;> exact ⟨by decide, by decide, fun _ => rfl, rfl⟩

theorem closed_spaces {cs : List Char} (h : Spaces cs) : Closed cs [] := by
  induction cs with
  | nil => exact closed_nil
  | cons c cs ih =>
    have hfirst := (marks_space (h c List.mem_cons_self)).closed
    exact hfirst.append (ih fun d hd => h d (List.mem_cons_of_mem c hd))

/-- White space behind a text completes what is pending, and leaves no token. -/
theorem Lexes.append_spaces {text cs : List Char} {tokens : List Token} (h : Lexes text tokens) (hcs : Spaces cs) :
    Lexes (text ++ cs) tokens := by
  cases cs with
  | nil => rwa [List.append_nil]
  | cons c cs =>
    have hfirst := h.append_mark (marks_space (hcs c List.mem_cons_self))
    have hrest := closed_spaces fun d hd => hcs d (List.mem_cons_of_mem c hd)
    have hall := hfirst.append hrest
    rw [List.append_assoc, List.append_nil, List.append_nil] at hall
    exact hall.lexes

theorem lexes_spaced {kind : List Char → Prop} {text : List Char} {tokens : List Token}
    (hkind : ∀ body, kind body → Lexes body tokens) (h : Spaced kind text) : Lexes text tokens := by
  obtain ⟨front, body, back, rfl, hfront, hbody, hback⟩ := h
  exact (closed_spaces hfront).append_lexes ((hkind body hbody).append_spaces hback)

theorem lexes_null : Lexes ['n', 'u', 'l', 'l'] [.null] := fun _ => ⟨_, rfl, rfl⟩

theorem lexes_true : Lexes ['t', 'r', 'u', 'e'] [.bool true] := fun _ => ⟨_, rfl, rfl⟩

theorem lexes_false : Lexes ['f', 'a', 'l', 's', 'e'] [.bool false] := fun _ => ⟨_, rfl, rfl⟩

/-- Digits and the other characters of a number are put behind each other until it ends. -/
theorem foldlM_number (text digits : List Char) (ts : List Token) (h : ∀ c ∈ text, isNumberChar c) :
    text.foldlM feed ⟨.number digits, ts⟩ = some ⟨.number (text.reverse ++ digits), ts⟩ := by
  induction text generalizing digits with
  | nil => rfl
  | cons c cs ih =>
    have hfeed : feed ⟨.number digits, ts⟩ c = some ⟨.number (c :: digits), ts⟩ := by
      simp [feed, h c List.mem_cons_self]
    simp only [List.foldlM_cons, hfeed, Option.bind_eq_bind, Option.bind_some]
    rw [ih _ fun d hd => h d (List.mem_cons_of_mem c hd), List.reverse_cons, List.append_assoc]
    rfl

theorem begin_number (c : Char) (ts : List Token) (h : c = '-' ∨ c.isDigit) :
    begin c ts = some ⟨.number [c], ts⟩ := by
  rcases h with rfl | h
  · rfl
  · have hne := fun d hd => Numeral.isDigit_ne c d h hd
    simp [begin, isSpace, h, hne]

theorem lexes_number {text : List Char} {n : Numeral} (h : NumberText text n) : Lexes text [.number n] := by
  intro ts
  obtain ⟨c, cs, htext, hc⟩ := h.exists_cons
  have hchars := h.isNumberChar
  rw [htext] at hchars
  refine ⟨⟨.number (cs.reverse ++ [c]), ts⟩, ?_, ?_⟩
  · simp only [htext, List.foldlM_cons, feed, begin_number c ts hc, Option.bind_eq_bind, Option.bind_some]
    exact foldlM_number cs [c] ts fun d hd => hchars d (List.mem_cons_of_mem c hd)
  · have hback : (cs.reverse ++ [c]).reverse = text := by simp [htext]
    simp only [settle, hback, h.ofText?]
    rfl

/-- The hexadecimal digits of a unit that are still missing are taken up one by one. -/
theorem foldlM_hex (digits : List Char) (hne : digits ≠ []) (pieces : List Piece) (ts : List Token) (value n : Nat)
    (h : digits.foldlM (fun v c => (Text.hexDigit? c).map (v * 16 + ·)) value = some n) :
    digits.foldlM feed ⟨.hex pieces digits.length value, ts⟩ = some ⟨.string (.unit n :: pieces), ts⟩ := by
  induction digits generalizing value with
  | nil => exact absurd rfl hne
  | cons c cs ih =>
    rw [List.foldlM_cons, Option.bind_eq_bind] at h
    obtain ⟨next, hnext, hrest⟩ := Option.bind_eq_some_iff.1 h
    obtain ⟨d, hd, rfl⟩ := Option.map_eq_some_iff.1 hnext
    simp only [List.foldlM_cons, feed, hd, Option.map_some, Option.bind_eq_bind, Option.bind_some]
    cases cs with
    | nil =>
      obtain rfl := Option.some.inj hrest
      rfl
    | cons c' cs =>
      rw [if_neg (by simp), List.length_cons, Nat.add_sub_cancel]
      exact ih (by simp) _ hrest

theorem mem_escapes_iff (c e : Char) : (c, e) ∈ escapes ↔ escapeChar? c = some e := by
  constructor
  · intro h
    simp only [escapes, List.mem_cons, Prod.mk.injEq, List.not_mem_nil, or_false] at h
    rcases h with h | h | h | h | h | h | h | h <;>
    · obtain ⟨rfl, rfl⟩ := h
      rfl
  · intro h
    unfold escapeChar? at h
    split at h
    all_goals first
      | cases h; done
      | (obtain rfl := Option.some.inj h
         decide)

/-- A piece of a literal is taken up where it is written. -/
theorem foldlM_piece {cs : List Char} {piece : Piece} (h : PieceText cs piece) (pieces : List Piece) (ts : List Token) :
    cs.foldlM feed ⟨.string pieces, ts⟩ = some ⟨.string (piece :: pieces), ts⟩ := by
  cases h with
  | plain hcontrol hquote hslash => simp [feed, hquote, hslash, Nat.not_lt.2 hcontrol]
  | @escape c e h =>
    have hescape := (mem_escapes_iff c e).1 h
    have hu : c ≠ 'u' := by
      rintro rfl
      cases hescape
    simp [feed, hescape, hu]
  | @unit digits n hlength h =>
    have hne : digits ≠ [] := by
      rintro rfl
      cases hlength
    have hhex := foldlM_hex digits hne pieces ts 0 n h
    rw [hlength] at hhex
    exact hhex

theorem foldlM_pieces {body : List Char} {pieces : List Piece} (h : PiecesText body pieces) (before : List Piece)
    (ts : List Token) :
    body.foldlM feed ⟨.string before, ts⟩ = some ⟨.string (pieces.reverse ++ before), ts⟩ := by
  induction h generalizing before with
  | nil => rfl
  | cons hpiece _ ih =>
    rw [List.foldlM_append, foldlM_piece hpiece, List.reverse_cons, List.append_assoc]
    exact ih _

theorem closed_literal {s : Option String} {text : List Char} (h : LiteralText text s) : Closed text [.string s] := by
  obtain ⟨body, pieces, rfl, hbody, rfl⟩ := h
  intro ts
  have hbegin : feed ⟨.between, ts⟩ '"' = some ⟨.string [], ts⟩ := rfl
  rw [List.cons_append, List.foldlM_cons, hbegin, Option.bind_eq_bind, Option.bind_some, List.foldlM_append,
    foldlM_pieces hbody]
  simp [feed, stringToken]

mutual

/-- The tokens of a tree are found where it is written. -/
theorem lexes_written : (t : Tree) → (text : List Char) → t.Written text → Lexes text t.tokens
  | .null, _, h => h ▸ lexes_null
  | .bool true, _, h => h ▸ lexes_true
  | .bool false, _, h => h ▸ lexes_false
  | .number _, _, h => lexes_number h
  | .string _, _, h => (closed_literal h).lexes
  | .array items, _, ⟨body, htext, hbody⟩ => by
    rw [htext]
    exact (marks_openArray.closed.append ((lexes_items items body hbody).append_mark marks_closeArray)).lexes
  | .object members, _, ⟨body, htext, hbody⟩ => by
    rw [htext]
    exact (marks_openObject.closed.append ((lexes_members members body hbody).append_mark marks_closeObject)).lexes

theorem lexes_items : (items : List Tree) → (text : List Char) → Tree.ItemsWritten items text →
    Lexes text (Tree.itemTokens items)
  | [], _, h => (closed_spaces h).lexes
  | [t], _, h => lexes_spaced (lexes_written t) h
  | t :: t' :: ts, _, ⟨front, back, htext, hfront, hback⟩ => by
    have hitem := (lexes_spaced (lexes_written t) hfront).append_mark marks_comma
    have h := hitem.append_lexes (lexes_items (t' :: ts) back hback)
    simpa [htext, Tree.itemTokens] using h

theorem lexes_members : (members : List (Option String × Tree)) → (text : List Char) →
    Tree.MembersWritten members text → Lexes text (Tree.memberTokens members)
  | [], _, h => (closed_spaces h).lexes
  | [(name, t)], _, ⟨front, back, htext, hfront, hback⟩ => by
    have hname := (lexes_spaced (fun _ hcs => (closed_literal hcs).lexes) hfront).append_mark marks_colon
    have h := hname.append_lexes (lexes_spaced (lexes_written t) hback)
    simpa [htext, Tree.memberTokens] using h
  | (name, t) :: m :: ms, _, ⟨front, middle, back, htext, hfront, hmiddle, hback⟩ => by
    have hname := (lexes_spaced (fun _ hcs => (closed_literal hcs).lexes) hfront).append_mark marks_colon
    have hvalue := (lexes_spaced (lexes_written t) hmiddle).append_mark marks_comma
    have h := (hname.append hvalue).append_lexes (lexes_members (m :: ms) back hback)
    simpa [htext, Tree.memberTokens] using h

end

end CardIndex.Json.Lexer
