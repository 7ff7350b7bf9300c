import CardIndex.Json.Value
import CardIndex.Proofs.Json.Parser
import CardIndex.Proofs.Json.Tokens

namespace CardIndex.Json

theorem Lexer.isSpace_iff (c : Char) : isSpace c ↔ c ∈ [' ', '\t', '\n', '\r'] := by
  simp [isSpace, or_assoc]

theorem Spelled.spaces {cs : List Char} (h : Spelled cs []) : Spaces cs := by
  generalize htokens : ([] : List Token) = tokens at h
  induction h with
  | nil => exact spaces_nil
  | space hc _ ih => exact .cons ((Lexer.isSpace_iff _).1 hc) (ih htokens)
  | token => cases htokens

/-- A text that starts with one of the given kind, after white space, and goes on with the tokens. -/
def Ahead (kind : List Char → Prop) (text : List Char) (tokens : List Token) : Prop :=
  ∃ gap body rest, text = gap ++ (body ++ rest) ∧ Spaces gap ∧ kind body ∧ Spelled rest tokens

theorem Spelled.ahead {text : List Char} {token : Token} {tokens : List Token} (h : Spelled text (token :: tokens)) :
    Ahead token.Written text tokens := by
  generalize htokens : token :: tokens = all at h
  induction h with
  | nil => cases htokens
  | space hc _ ih =>
    obtain ⟨gap, body, rest, rfl, hgap, hbody, hrest⟩ := ih htokens
    exact ⟨_ :: gap, body, rest, rfl, hgap.cons ((Lexer.isSpace_iff _).1 hc), hbody, hrest⟩
  | @token cs rest first more htoken hrest _ =>
    obtain ⟨rfl, rfl⟩ := List.cons.inj htokens
    exact ⟨[], cs, rest, rfl, spaces_nil, htoken, hrest⟩

/-- White space may stand between a text of the kind and the mark behind it. -/
theorem Ahead.spaced {kind : List Char → Prop} {text : List Char} {token : Token} {tokens : List Token} {c : Char}
    (h : Ahead kind text (token :: tokens)) (hmark : ∀ cs, token.Written cs → cs = [c]) :
    ∃ front rest, text = front ++ c :: rest ∧ Spaced kind front ∧ Spelled rest tokens := by
  obtain ⟨gap, body, rest, rfl, hgap, hbody, hrest⟩ := h
  obtain ⟨gap', cs, rest', rfl, hgap', hcs, hrest'⟩ := hrest.ahead
  obtain rfl := hmark cs hcs
  exact ⟨gap ++ (body ++ gap'), rest', by simp, ⟨gap, body, gap', rfl, hgap, hbody, hgap'⟩, hrest'⟩

namespace Tree

mutual

/-- Where the tokens of a tree are, there the tree is written. -/
theorem ahead_written : (t : Tree) → {text : List Char} → {tokens : List Token} →
    Spelled text (t.tokens ++ tokens) → Ahead t.Written text tokens
  | .null, _, _, h => h.ahead
  | .bool _, _, _, h => h.ahead
  | .number _, _, _, h => h.ahead
  | .string _, _, _, h => h.ahead
  | .array items, text, tokens, h => by
    rw [Tree.tokens, List.cons_append, List.cons_append, List.append_assoc] at h
    obtain ⟨gap, cs, rest, rfl, hgap, rfl, hrest⟩ := h.ahead
    obtain ⟨body, back, rfl, hbody, hback⟩ := ahead_items items hrest
    exact ⟨gap, '[' :: body ++ [']'], back, by simp, hgap, ⟨body, rfl, hbody⟩, hback⟩
  | .object members, text, tokens, h => by
    rw [Tree.tokens, List.cons_append, List.cons_append, List.append_assoc] at h
    obtain ⟨gap, cs, rest, rfl, hgap, rfl, hrest⟩ := h.ahead
    obtain ⟨body, back, rfl, hbody, hback⟩ := ahead_members members hrest
    exact ⟨gap, '{' :: body ++ ['}'], back, by simp, hgap, ⟨body, rfl, hbody⟩, hback⟩

theorem ahead_items : (items : List Tree) → {text : List Char} → {tokens : List Token} →
    Spelled text (itemTokens items ++ ([.closeArray] ++ tokens)) →
    ∃ body back, text = body ++ ']' :: back ∧ ItemsWritten items body ∧ Spelled back tokens
  | [], _, _, h => by
    obtain ⟨gap, cs, rest, rfl, hgap, rfl, hrest⟩ := h.ahead
    exact ⟨gap, rest, rfl, hgap, hrest⟩
  | [t], _, _, h => (ahead_written t h).spaced fun _ hcs => hcs
  | t :: t' :: ts, _, _, h => by
    rw [itemTokens, List.append_assoc] at h
    · obtain ⟨front, rest, rfl, hfront, hrest⟩ := (ahead_written t h).spaced fun _ hcs => hcs
      obtain ⟨body, back, rfl, hbody, hback⟩ := ahead_items (t' :: ts) hrest
      exact ⟨front ++ ',' :: body, back, by simp, ⟨front, body, rfl, hfront, hbody⟩, hback⟩
    · simp

theorem ahead_members : (members : List (Option String × Tree)) → {text : List Char} → {tokens : List Token} →
    Spelled text (memberTokens members ++ ([.closeObject] ++ tokens)) →
    ∃ body back, text = body ++ '}' :: back ∧ MembersWritten members body ∧ Spelled back tokens
  | [], _, _, h => by
    obtain ⟨gap, cs, rest, rfl, hgap, rfl, hrest⟩ := h.ahead
    exact ⟨gap, rest, rfl, hgap, hrest⟩
  | [(name, t)], _, _, h => by
    obtain ⟨front, rest, rfl, hfront, hrest⟩ := h.ahead.spaced fun _ hcs => hcs
    obtain ⟨middle, back, rfl, hmiddle, hback⟩ := (ahead_written t hrest).spaced fun _ hcs => hcs
    exact ⟨front ++ ':' :: middle, back, by simp, ⟨front, middle, rfl, hfront, hmiddle⟩, hback⟩
  | (name, t) :: m :: ms, _, _, h => by
    simp only [memberTokens, List.cons_append, List.append_assoc] at h
    obtain ⟨front, rest, rfl, hfront, hrest⟩ := h.ahead.spaced fun _ hcs => hcs
    obtain ⟨middle, rest', rfl, hmiddle, hrest'⟩ := (ahead_written t hrest).spaced fun _ hcs => hcs
    obtain ⟨body, back, rfl, hbody, hback⟩ := ahead_members (m :: ms) hrest'
    exact ⟨front ++ ':' :: (middle ++ ',' :: body), back, by simp, ⟨front, middle, body, rfl, hfront, hmiddle, hbody⟩,
      hback⟩

end

/-- The tokens of a text are those of a tree exactly if it writes the tree, with white space around it. -/
theorem tokens?_eq_some_iff (text : List Char) (t : Tree) :
    Lexer.tokens? text = some t.tokens ↔ Spaced t.Written text := by
  constructor
  · intro h
    have hspelled := Lexer.spelled_tokens? h
    rw [← List.append_nil t.tokens] at hspelled
    obtain ⟨gap, body, rest, htext, hgap, hbody, hrest⟩ := t.ahead_written hspelled
    exact ⟨gap, body, rest, htext, hgap, hbody, hrest.spaces⟩
  · intro h
    exact (Lexer.lexes_spaced (Lexer.lexes_written t) h).tokens?

/-- A text is read as the tree that it writes, unless that is too deep. -/
theorem ofTextWithin?_eq_some_iff (limit : Nat) (s : String) (t : Tree) :
    ofTextWithin? limit s = some t ↔ Spaced t.Written s.toList ∧ t.depth ≤ limit := by
  rw [ofTextWithin?, Option.bind_eq_some_iff, ← tokens?_eq_some_iff]
  simp only [Parser.tree?_eq_some_iff]
  constructor
  · rintro ⟨tokens, htokens, rfl, hroom⟩
    exact ⟨htokens, hroom limit rfl⟩
  · rintro ⟨htokens, hdepth⟩
    exact ⟨_, htokens, rfl, fun n hn => Option.some.inj hn ▸ hdepth⟩

end Tree

end CardIndex.Json
