import CardIndex.Json.Lexer

namespace CardIndex.Json.Lexer

/-- The characters that are tokens by themselves. -/
inductive Mark : Char → Token → Prop
  | openArray : Mark '[' .openArray
  | closeArray : Mark ']' .closeArray
  | openObject : Mark '{' .openObject
  | closeObject : Mark '}' .closeObject
  | colon : Mark ':' .colon
  | comma : Mark ',' .comma

/-- The states that a character can lead to where no token has begun. -/
inductive Begins (tokens : List Token) : Char → State → Prop
  | space {c : Char} (h : isSpace c) : Begins tokens c ⟨.between, tokens⟩
  | mark {c : Char} {token : Token} (h : Mark c token) : Begins tokens c ⟨.between, token :: tokens⟩
  | quote : Begins tokens '"' ⟨.string [], tokens⟩
  | digit {c : Char} (h : c = '-' ∨ c.isDigit) : Begins tokens c ⟨.number [c], tokens⟩
  | letter {c : Char} (h : c.isLower) : Begins tokens c ⟨.word [c], tokens⟩

/-- One step of the lexer: a character goes on with what is pending, or completes it and begins anew. -/
inductive Steps : State → Char → State → Prop
  | begins {s s' : State} {c : Char} {tokens : List Token} (hsettle : settle s = some tokens)
    (hbegin : Begins tokens c s') : Steps s c s'
  | letter {letters : List Char} {c : Char} {tokens : List Token} (h : c.isLower) :
    Steps ⟨.word letters, tokens⟩ c ⟨.word (c :: letters), tokens⟩
  | digit {digits : List Char} {c : Char} {tokens : List Token} (h : isNumberChar c) :
    Steps ⟨.number digits, tokens⟩ c ⟨.number (c :: digits), tokens⟩
  | close {pieces : List Piece} {tokens : List Token} :
    Steps ⟨.string pieces, tokens⟩ '"' ⟨.between, stringToken pieces :: tokens⟩
  | slash {pieces : List Piece} {tokens : List Token} :
    Steps ⟨.string pieces, tokens⟩ '\\' ⟨.escape pieces, tokens⟩
  | plain {pieces : List Piece} {c : Char} {tokens : List Token} (hcontrol : 0x20 ≤ c.toNat) (hquote : c ≠ '"')
    (hslash : c ≠ '\\') : Steps ⟨.string pieces, tokens⟩ c ⟨.string (.char c :: pieces), tokens⟩
  | unit {pieces : List Piece} {tokens : List Token} :
    Steps ⟨.escape pieces, tokens⟩ 'u' ⟨.hex pieces 4 0, tokens⟩
  | escape {pieces : List Piece} {c e : Char} {tokens : List Token} (h : escapeChar? c = some e) :
    Steps ⟨.escape pieces, tokens⟩ c ⟨.string (.char e :: pieces), tokens⟩
  | hex {pieces : List Piece} {missing value d : Nat} {c : Char} {tokens : List Token} (hmissing : missing ≠ 1)
    (h : Text.hexDigit? c = some d) :
    Steps ⟨.hex pieces missing value, tokens⟩ c ⟨.hex pieces (missing - 1) (value * 16 + d), tokens⟩
  | lastHex {pieces : List Piece} {value d : Nat} {c : Char} {tokens : List Token} (h : Text.hexDigit? c = some d) :
    Steps ⟨.hex pieces 1 value, tokens⟩ c ⟨.string (.unit (value * 16 + d) :: pieces), tokens⟩

theorem begins_of_begin {c : Char} {tokens : List Token} {s : State} (h : begin c tokens = some s) :
    Begins tokens c s := by
  unfold begin at h
  split at h
  · rename_i hspace
    obtain rfl := Option.some.inj h
    exact .space hspace
  iterate 6
    split at h
    · rename_i hc
      subst hc
      obtain rfl := Option.some.inj h
      exact .mark (by constructor)
  split at h
  · rename_i hquote
    subst hquote
    obtain rfl := Option.some.inj h
    exact .quote
  split at h
  · rename_i hdigit
    obtain rfl := Option.some.inj h
    exact .digit (by simpa using hdigit)
  split at h
  · rename_i hlower
    obtain rfl := Option.some.inj h
    exact .letter hlower
  · cases h

theorem steps_of_settle {s s' : State} {c : Char} (h : (settle s).bind (begin c) = some s') : Steps s c s' := by
  obtain ⟨tokens, hsettle, hbegin⟩ := Option.bind_eq_some_iff.1 h
  exact .begins hsettle (begins_of_begin hbegin)

theorem steps_of_feed {s s' : State} {c : Char} (h : feed s c = some s') : Steps s c s' := by
  obtain ⟨mode, tokens⟩ := s
  cases mode with
  | between => exact .begins rfl (begins_of_begin h)
  | word letters =>
    simp only [feed] at h
    split at h
    · rename_i hlower
      obtain rfl := Option.some.inj h
      exact .letter hlower
    · exact steps_of_settle h
  | number digits =>
    simp only [feed] at h
    split at h
    · rename_i hnumber
      obtain rfl := Option.some.inj h
      exact .digit hnumber
    · exact steps_of_settle h
  | string pieces =>
    simp only [feed] at h
    split at h
    · rename_i hquote
      subst hquote
      obtain rfl := Option.some.inj h
      exact .close
    split at h
    · rename_i hslash
      subst hslash
      obtain rfl := Option.some.inj h
      exact .slash
    split at h
    · cases h
    · rename_i hquote hslash hcontrol
      obtain rfl := Option.some.inj h
      exact .plain (Nat.not_lt.1 hcontrol) hquote hslash
  | escape pieces =>
    simp only [feed] at h
    split at h
    · rename_i hu
      subst hu
      obtain rfl := Option.some.inj h
      exact .unit
    · obtain ⟨e, he, rfl⟩ := Option.map_eq_some_iff.1 h
      exact .escape he
  | hex pieces missing value =>
    simp only [feed] at h
    obtain ⟨d, hd, rfl⟩ := Option.map_eq_some_iff.1 h
    split
    · rename_i hlast
      subst hlast
      exact .lastHex hd
    · rename_i hmissing
      exact .hex hmissing hd

/-- What holds at the start of a text, and still holds after each character, holds at its end. -/
theorem foldlM_feed_induction {motive : List Char → State → Prop}
    (step : ∀ front s c s', motive front s → Steps s c s' → motive (front ++ [c]) s') (front text : List Char)
    {s s' : State} (hs : motive front s) (h : text.foldlM feed s = some s') : motive (front ++ text) s' := by
  induction text generalizing front s with
  | nil =>
    obtain rfl := Option.some.inj h
    rwa [List.append_nil]
  | cons c cs ih =>
    rw [List.foldlM_cons, Option.bind_eq_bind] at h
    obtain ⟨next, hnext, hrest⟩ := Option.bind_eq_some_iff.1 h
    have hend := ih (front ++ [c]) (step front s c next hs (steps_of_feed hnext)) hrest
    rwa [List.append_assoc] at hend

end CardIndex.Json.Lexer
