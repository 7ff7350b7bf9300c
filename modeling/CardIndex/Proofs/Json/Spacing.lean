import CardIndex.Proofs.Json.Steps

namespace CardIndex.Json.Lexer

/-- Where a text stands with regard to its string literals. -/
inductive Quoting
  | outside
  | inside
  | escaped
deriving DecidableEq

namespace Quoting

def next : Quoting → Char → Quoting
  | outside, c => if c = '"' then inside else outside
  | inside, c => if c = '"' then outside else if c = '\\' then escaped else inside
  | escaped, _ => inside

/-- Where a text stands at its end. -/
def after (text : List Char) : Quoting := text.foldl next outside

/-- Only a quote leads out of a literal. -/
theorem eq_outside_of_next (q : Quoting) (c : Char) (hc : c ≠ '"') (h : q.next c = outside) : q = outside := by
  cases q with
  | outside => rfl
  | inside =>
    rw [next, if_neg hc] at h
    split at h <;> cases h
  | escaped => cases h

end Quoting

/-- White space, or a character that is a token by itself. -/
def isBreak (c : Char) : Bool :=
  isSpace c || c = '[' || c = ']' || c = '{' || c = '}' || c = ':' || c = ','

/-- A place outside string literals with an end of the text or a break on at least one side. In a JSON text these
are the places between tokens: two characters of a word or number have no gap between them. -/
def Gap (front back : List Char) : Prop :=
  Quoting.after front = .outside ∧
    (front = [] ∨ back = [] ∨ (∃ c ∈ front.getLast?, isBreak c) ∨ ∃ c ∈ back.head?, isBreak c)

instance (front back : List Char) : Decidable (Gap front back) :=
  inferInstanceAs (Decidable (_ ∧ (_ ∨ _ ∨ (∃ c ∈ front.getLast?, isBreak c) ∨ ∃ c ∈ back.head?, isBreak c)))

/-- One character of white space more or less, in a gap. -/
inductive Respaced : List Char → List Char → Prop
  | insert {front back : List Char} {c : Char} (gap : Gap front back) (space : isSpace c) :
    Respaced (front ++ back) (front ++ c :: back)
  | remove {front back : List Char} {c : Char} (gap : Gap front back) (space : isSpace c) :
    Respaced (front ++ c :: back) (front ++ back)

def Mode.quoting : Mode → Quoting
  | .between | .word _ | .number _ => .outside
  | .string _ | .hex _ _ _ => .inside
  | .escape _ => .escaped

theorem quoting_of_settle {s : State} {tokens : List Token} (h : settle s = some tokens) :
    s.mode.quoting = .outside := by
  obtain ⟨mode, before⟩ := s
  cases mode with
  | between | word letters | number digits => rfl
  | string pieces | escape pieces | hex pieces missing value => cases h

/-- Nothing but a quote leads into a literal. -/
theorem Quoting.next_outside {c : Char} (hc : c ≠ '"') : outside.next c = outside := if_neg hc

theorem Quoting.next_inside {c : Char} (hquote : c ≠ '"') (hslash : c ≠ '\\') : inside.next c = inside := by
  rw [next, if_neg hquote, if_neg hslash]

theorem hexDigit?_plain {c : Char} {d : Nat} (h : Text.hexDigit? c = some d) : c ≠ '"' ∧ c ≠ '\\' := by
  constructor
  · rintro rfl
    cases h
  · rintro rfl
    cases h

theorem quoting_begins {c : Char} {tokens : List Token} {s : State} (h : Begins tokens c s) :
    s.mode.quoting = Quoting.outside.next c := by
  cases h with
  | space hspace => exact (Quoting.next_outside (ne_of_apply_ne isSpace (by rw [hspace]; decide))).symm
  | mark hmark => cases hmark <;> rfl
  | quote => rfl
  | digit hdigit =>
    rcases hdigit with rfl | hdigit
    · rfl
    · exact (Quoting.next_outside (ne_of_apply_ne Char.isDigit (by rw [hdigit]; decide))).symm
  | letter hlower => exact (Quoting.next_outside (ne_of_apply_ne Char.isLower (by rw [hlower]; decide))).symm

theorem quoting_steps {s s' : State} {c : Char} (h : Steps s c s') : s'.mode.quoting = s.mode.quoting.next c := by
  cases h with
  | begins hsettle hbegin => rw [quoting_of_settle hsettle, quoting_begins hbegin]
  | letter hlower => exact (Quoting.next_outside (ne_of_apply_ne Char.isLower (by rw [hlower]; decide))).symm
  | digit hnumber => exact (Quoting.next_outside (ne_of_apply_ne isNumberChar (by rw [hnumber]; decide))).symm
  | close | slash | unit | escape => rfl
  | plain _ hquote hslash => exact (Quoting.next_inside hquote hslash).symm
  | hex _ hd | lastHex hd => exact (Quoting.next_inside (hexDigit?_plain hd).1 (hexDigit?_plain hd).2).symm

theorem quoting_foldlM (text : List Char) (s s' : State) (h : text.foldlM feed s = some s') :
    s'.mode.quoting = text.foldl Quoting.next s.mode.quoting := by
  refine foldlM_feed_induction (motive := fun front t => t.mode.quoting = front.foldl Quoting.next s.mode.quoting)
    (fun front t c t' ht hstep => ?_) [] text rfl h
  rw [quoting_steps hstep, ht, List.foldl_append]
  rfl

theorem isBreak_plain (c : Char) (h : isBreak c) : c.isLower = false ∧ isNumberChar c = false := by
  simp only [isBreak, isSpace, Bool.or_eq_true, decide_eq_true_eq] at h
  rcases h with (((((((((rfl | rfl) | rfl) | rfl) | rfl) | rfl) | rfl) | rfl) | rfl) | rfl) <;> decide

/-- Outside string literals a break ends what is pending, and is then taken as where nothing is. -/
theorem feed_break (s : State) (c : Char) (hs : s.mode.quoting = .outside) (hc : isBreak c) :
    feed s c = (settle s).bind (begin c) := by
  obtain ⟨hlower, hnumber⟩ := isBreak_plain c hc
  obtain ⟨mode, ts⟩ := s
  cases mode with
  | between => rfl
  | word letters => simp only [feed, hlower, Bool.false_eq_true, if_false]
  | number digits => simp only [feed, hnumber, Bool.false_eq_true, if_false]
  | string pieces | escape pieces | hex pieces missing value => cases hs

theorem begin_space (c : Char) (ts : List Token) (h : isSpace c) : begin c ts = some ⟨.between, ts⟩ := by
  simp [begin, h]

theorem isBreak_of_isSpace (c : Char) (h : isSpace c) : isBreak c := by
  simp [isBreak, h]

theorem feed_space (s : State) (c : Char) (hs : s.mode.quoting = .outside) (hc : isSpace c) :
    feed s c = (settle s).map (⟨.between, ·⟩) := by
  rw [feed_break s c hs (isBreak_of_isSpace c hc)]
  cases settle s with
  | none => rfl
  | some ts => exact begin_space c ts hc

theorem begin_break (c : Char) (ts : List Token) (s : State) (hc : isBreak c) (h : begin c ts = some s) :
    s.mode = .between := by
  simp only [isBreak, isSpace, Bool.or_eq_true, decide_eq_true_eq] at hc
  rcases hc with (((((((((rfl | rfl) | rfl) | rfl) | rfl) | rfl) | rfl) | rfl) | rfl) | rfl) <;>
  · obtain rfl := Option.some.inj h
    rfl

/-- Nothing is pending behind a break. -/
theorem mode_of_getLast? (front : List Char) (s : State) (hs : front.foldlM feed start = some s)
    (hout : Quoting.after front = .outside) (hlast : ∃ c ∈ front.getLast?, isBreak c) : s.mode = .between := by
  obtain ⟨c, hc, hbreak⟩ := hlast
  obtain ⟨init, rfl⟩ := List.getLast?_eq_some_iff.1 hc
  rw [List.foldlM_append] at hs
  obtain ⟨t, ht, hfeed⟩ := Option.bind_eq_some_iff.1 hs
  simp only [List.foldlM_cons, List.foldlM_nil, bind_pure] at hfeed
  have hquote : c ≠ '"' := by rintro rfl; revert hbreak; decide
  have hbefore : t.mode.quoting = .outside := by
    rw [quoting_foldlM init start t ht]
    rw [Quoting.after, List.foldl_append] at hout
    exact Quoting.eq_outside_of_next _ c hquote hout
  rw [feed_break t c hbefore hbreak] at hfeed
  obtain ⟨ts, -, hbegin⟩ := Option.bind_eq_some_iff.1 hfeed
  exact begin_break c ts s hbreak hbegin

/-- White space in a gap leaves no trace. -/
theorem tokens?_insert (front back : List Char) (c : Char) (gap : Gap front back) (space : isSpace c) :
    tokens? (front ++ c :: back) = tokens? (front ++ back) := by
  unfold tokens?
  rw [List.foldlM_append, List.foldlM_append]
  cases hs : front.foldlM feed start with
  | none => rfl
  | some s =>
    simp only [Option.bind_eq_bind, Option.bind_some, List.foldlM_cons]
    have hout : s.mode.quoting = .outside := by
      rw [quoting_foldlM front start s hs]
      exact gap.1
    have hstay : s.mode = .between → feed s c = some s := by
      obtain ⟨mode, ts⟩ := s
      rintro rfl
      exact begin_space c ts space
    rcases gap.2 with hnil | hnil | hlast | ⟨d, hd, hbreak⟩
    · subst hnil
      obtain rfl := Option.some.inj hs
      rw [hstay rfl, Option.bind_some]
    · subst hnil
      simp only [List.foldlM_nil, Option.pure_def, Option.bind_some, feed_space s c hout space]
      cases settle s with
      | none => rfl
      | some ts => rfl
    · rw [hstay (mode_of_getLast? front s hs gap.1 hlast), Option.bind_some]
    · obtain ⟨rest, rfl⟩ := List.head?_eq_some_iff.1 hd
      simp only [List.foldlM_cons, Option.bind_eq_bind, feed_space s c hout space, feed_break s d hout hbreak]
      cases settle s with
      | none => rfl
      | some ts => rfl

/-- A text may start with white space. -/
theorem Respaced.lead (text : List Char) (c : Char) (space : isSpace c) : Respaced text (c :: text) :=
  (Respaced.insert ⟨rfl, .inl rfl⟩ space : Respaced ([] ++ text) ([] ++ c :: text))

theorem Respaced.tokens? {text text' : List Char} (h : Respaced text text') :
    Lexer.tokens? text' = Lexer.tokens? text := by
  cases h with
  | insert gap space => exact tokens?_insert _ _ _ gap space
  | remove gap space => exact (tokens?_insert _ _ _ gap space).symm

end CardIndex.Json.Lexer
