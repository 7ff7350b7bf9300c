import CardIndex.Json.Parser
import CardIndex.Proofs.Json.Lexer
import CardIndex.Proofs.Json.Printer

namespace CardIndex.Json

mutual

/-- How many containers stand inside each other at most. -/
def Tree.depth : Tree → Nat
  | .array items => Tree.itemsDepth items + 1
  | .object members => Tree.membersDepth members + 1
  | _ => 0

def Tree.itemsDepth : List Tree → Nat
  | [] => 0
  | t :: ts => max t.depth (Tree.itemsDepth ts)

def Tree.membersDepth : List (Option String × Tree) → Nat
  | [] => 0
  | (_, t) :: ms => max t.depth (Tree.membersDepth ms)

end

namespace Parser

/-- The first token of a tree is none that closes an array, so an array that has just been opened takes it as
one that holds something takes its next item. -/
theorem step_arrayStart (limit : Option Nat) (outer : List Frame) (t : Tree) (tokens : List Token) :
    (t.tokens ++ tokens).foldlM (step limit) (.arrayStart outer) =
      (t.tokens ++ tokens).foldlM (step limit) (.value (.array [] :: outer)) := by
  cases t <;> rfl

theorem itemTokens_append (t : Tree) (ts : List Tree) (tokens : List Token) :
    ∃ rest, Tree.itemTokens (t :: ts) ++ tokens = t.tokens ++ rest := by
  cases ts with
  | nil => exact ⟨tokens, rfl⟩
  | cons t' ts => exact ⟨.comma :: Tree.itemTokens (t' :: ts) ++ tokens, by simp [Tree.itemTokens]⟩

theorem step_objectStart (limit : Option Nat) (outer : List Frame) (m : Option String × Tree)
    (ms : List (Option String × Tree)) (tokens : List Token) :
    (Tree.memberTokens (m :: ms) ++ tokens).foldlM (step limit) (.objectStart outer) =
      (Tree.memberTokens (m :: ms) ++ tokens).foldlM (step limit) (.name [] outer) := by
  cases ms <;> rfl

/-- A limit on the depth of containers, if there is one, leaves room for that many. -/
def Room (limit : Option Nat) (depth : Nat) : Prop := ∀ n ∈ limit, depth ≤ n

theorem Room.mono {limit : Option Nat} {depth depth' : Nat} (h : Room limit depth) (hle : depth' ≤ depth) :
    Room limit depth' :=
  fun n hn => Nat.le_trans hle (h n hn)

theorem hasRoom_iff (limit : Option Nat) (outer : List Frame) :
    hasRoom limit outer ↔ Room limit (outer.length + 1) := by
  cases limit with
  | none => simp [hasRoom, Room]
  | some n =>
    rw [hasRoom, Option.all_some, decide_eq_true_eq]
    exact ⟨fun h m hm => Option.some.inj hm ▸ h, fun h => h n rfl⟩

theorem room_add_max (limit : Option Nat) (a b c : Nat) :
    Room limit (a + max b c) ↔ Room limit (a + b) ∧ Room limit (a + c) := by
  constructor
  · intro h
    exact ⟨h.mono (by omega), h.mono (by omega)⟩
  · rintro ⟨hb, hc⟩ n hn
    have hb := hb n hn
    have hc := hc n hn
    omega

theorem step_openArray_iff (limit : Option Nat) (outer : List Frame) (s : State) :
    step limit (.value outer) .openArray = some s ↔ Room limit (outer.length + 1) ∧ s = .arrayStart outer := by
  rw [← hasRoom_iff, step, openValue]
  split
  · rename_i hroom
    simp [hroom, eq_comm]
  · rename_i hroom
    simp [hroom]

theorem step_openObject_iff (limit : Option Nat) (outer : List Frame) (s : State) :
    step limit (.value outer) .openObject = some s ↔ Room limit (outer.length + 1) ∧ s = .objectStart outer := by
  rw [← hasRoom_iff, step, openValue]
  split
  · rename_i hroom
    simp [hroom, eq_comm]
  · rename_i hroom
    simp [hroom]

/-- Tokens that begin with one are taken if the first is and then the rest. -/
theorem foldlM_cons_iff (limit : Option Nat) (token : Token) (tokens : List Token) (s s' : State) :
    (token :: tokens).foldlM (step limit) s = some s' ↔
      ∃ t, step limit s token = some t ∧ tokens.foldlM (step limit) t = some s' := by
  rw [List.foldlM_cons, Option.bind_eq_bind, Option.bind_eq_some_iff]

/-- What follows a tree's own tokens meets a finished value. -/
theorem foldlM_finished_iff {limit : Option Nat} {t : Tree} {outer : List Frame} {fits : Prop}
    (h : ∀ s, t.tokens.foldlM (step limit) (.value outer) = some s ↔ fits ∧ s = .after t outer) (token : Token)
    (tokens : List Token) (s : State) :
    (t.tokens ++ token :: tokens).foldlM (step limit) (.value outer) = some s ↔
      fits ∧ ∃ next, close t outer token = some next ∧ tokens.foldlM (step limit) next = some s := by
  rw [List.foldlM_append, Option.bind_eq_bind, Option.bind_eq_some_iff]
  simp only [h, and_assoc, exists_and_left, exists_eq_left, foldlM_cons_iff, step]

mutual

/-- A tree is built from its tokens if its containers have room, and otherwise nothing is. -/
theorem foldlM_tokens_iff {limit : Option Nat} : (t : Tree) → (outer : List Frame) → Room limit outer.length →
    (s : State) → (t.tokens.foldlM (step limit) (.value outer) = some s ↔
      Room limit (outer.length + t.depth) ∧ s = .after t outer)
  | .null, _, h, _ | .bool _, _, h, _ | .number _, _, h, _ | .string _, _, h, _ => by
    simp [Tree.tokens, Tree.depth, step, openValue, h, eq_comm]
  | .array items, outer, h, s => by
    have hdepth : outer.length + (Tree.array items).depth = outer.length + 1 + Tree.itemsDepth items := by
      rw [Tree.depth]
      omega
    have hlow : Room limit (outer.length + 1 + Tree.itemsDepth items) → Room limit (outer.length + 1) :=
      fun hroom => hroom.mono (by omega)
    rw [Tree.tokens, List.cons_append, foldlM_cons_iff, hdepth]
    simp only [step_openArray_iff, and_assoc, exists_and_left, exists_eq_left]
    cases items with
    | nil => simp [Tree.itemTokens, Tree.itemsDepth, step, eq_comm]
    | cons t ts =>
      obtain ⟨rest, hrest⟩ := itemTokens_append t ts [.closeArray]
      rw [hrest, step_arrayStart, ← hrest]
      constructor
      · rintro ⟨hroom, hfold⟩
        exact (foldlM_itemTokens_iff (t :: ts) (by simp) [] outer hroom s).1 hfold
      · rintro ⟨hroom, hs⟩
        exact ⟨hlow hroom, (foldlM_itemTokens_iff (t :: ts) (by simp) [] outer (hlow hroom) s).2 ⟨hroom, hs⟩⟩
  | .object members, outer, h, s => by
    have hdepth : outer.length + (Tree.object members).depth =
        outer.length + 1 + Tree.membersDepth members := by
      rw [Tree.depth]
      omega
    have hlow : Room limit (outer.length + 1 + Tree.membersDepth members) → Room limit (outer.length + 1) :=
      fun hroom => hroom.mono (by omega)
    rw [Tree.tokens, List.cons_append, foldlM_cons_iff, hdepth]
    simp only [step_openObject_iff, and_assoc, exists_and_left, exists_eq_left]
    cases members with
    | nil => simp [Tree.memberTokens, Tree.membersDepth, step, eq_comm]
    | cons m ms =>
      rw [step_objectStart]
      constructor
      · rintro ⟨hroom, hfold⟩
        exact (foldlM_memberTokens_iff (m :: ms) (by simp) [] outer hroom s).1 hfold
      · rintro ⟨hroom, hs⟩
        exact ⟨hlow hroom, (foldlM_memberTokens_iff (m :: ms) (by simp) [] outer (hlow hroom) s).2 ⟨hroom, hs⟩⟩

theorem foldlM_itemTokens_iff {limit : Option Nat} : (ts : List Tree) → ts ≠ [] → (items : List Tree) →
    (outer : List Frame) → Room limit (outer.length + 1) → (s : State) →
    ((Tree.itemTokens ts ++ [Token.closeArray]).foldlM (step limit) (.value (.array items :: outer)) = some s ↔
      Room limit (outer.length + 1 + Tree.itemsDepth ts) ∧ s = .after (.array (items.reverse ++ ts)) outer)
  | [], hne, _, _, _, _ => absurd rfl hne
  | [t], _, items, outer, h, s => by
    have hvalue := foldlM_tokens_iff t (.array items :: outer) h
    rw [Tree.itemTokens, foldlM_finished_iff hvalue]
    simp [close, Tree.itemsDepth, eq_comm]
  | t :: t' :: ts, _, items, outer, h, s => by
    have hvalue := foldlM_tokens_iff t (.array items :: outer) h
    have hrest := foldlM_itemTokens_iff (t' :: ts) (by simp) (t :: items) outer h s
    have htokens : Tree.itemTokens (t :: t' :: ts) ++ [.closeArray] =
        t.tokens ++ .comma :: (Tree.itemTokens (t' :: ts) ++ [.closeArray]) := by simp [Tree.itemTokens]
    rw [htokens, foldlM_finished_iff hvalue, Tree.itemsDepth, room_add_max, and_assoc]
    simp only [close, Option.some.injEq, exists_eq_left', hrest, List.reverse_cons, List.append_assoc]
    rfl

theorem foldlM_memberTokens_iff {limit : Option Nat} : (ms : List (Option String × Tree)) → ms ≠ [] →
    (members : List (Option String × Tree)) → (outer : List Frame) → Room limit (outer.length + 1) → (s : State) →
    ((Tree.memberTokens ms ++ [Token.closeObject]).foldlM (step limit) (.name members outer) = some s ↔
      Room limit (outer.length + 1 + Tree.membersDepth ms) ∧ s = .after (.object (members.reverse ++ ms)) outer)
  | [], hne, _, _, _, _ => absurd rfl hne
  | [(name, t)], _, members, outer, h, s => by
    have hvalue := foldlM_tokens_iff t (.object members name :: outer) h
    simp only [Tree.memberTokens, List.cons_append, foldlM_cons_iff, step, Option.some.injEq, exists_eq_left']
    rw [foldlM_finished_iff hvalue]
    simp [close, Tree.membersDepth, eq_comm]
  | (name, t) :: m :: ms, _, members, outer, h, s => by
    have hvalue := foldlM_tokens_iff t (.object members name :: outer) h
    have hrest := foldlM_memberTokens_iff (m :: ms) (by simp) ((name, t) :: members) outer h s
    have htokens : Tree.memberTokens ((name, t) :: m :: ms) ++ [.closeObject] = .string name :: .colon ::
        (t.tokens ++ .comma :: (Tree.memberTokens (m :: ms) ++ [.closeObject])) := by simp [Tree.memberTokens]
    simp only [htokens, foldlM_cons_iff, step, Option.some.injEq, exists_eq_left']
    rw [foldlM_finished_iff hvalue, Tree.membersDepth, room_add_max, and_assoc]
    simp only [close, Option.some.injEq, exists_eq_left', hrest, List.reverse_cons, List.append_assoc]
    rfl

end

/-- A tree that fits is read from its own tokens. -/
theorem tree?_tokens_iff (limit : Option Nat) (t : Tree) : tree? limit t.tokens = some t ↔ Room limit t.depth := by
  have hstart : Room limit ([] : List Frame).length := fun _ _ => Nat.zero_le _
  rw [tree?, Option.bind_eq_some_iff]
  simp only [foldlM_tokens_iff t [] hstart, List.length_nil, Nat.zero_add]
  constructor
  · rintro ⟨s, ⟨hroom, -⟩, -⟩
    exact hroom
  · intro hroom
    exact ⟨_, ⟨hroom, rfl⟩, rfl⟩

theorem tree?_tokens (t : Tree) : tree? none t.tokens = some t :=
  (tree?_tokens_iff none t).2 fun n hn => by cases hn

/-- The tokens of items that others follow. -/
def itemsTaken (items : List Tree) : List Token := items.flatMap fun t => t.tokens ++ [.comma]

def membersTaken (members : List (Option String × Tree)) : List Token :=
  members.flatMap fun (name, t) => .string name :: .colon :: t.tokens ++ [.comma]

theorem itemsTaken_append (items : List Tree) (t : Tree) :
    itemsTaken items ++ t.tokens = Tree.itemTokens (items ++ [t]) := by
  induction items with
  | nil => rfl
  | cons first items ih =>
    obtain ⟨second, rest, hrest⟩ := List.exists_cons_of_ne_nil (l := items ++ [t]) (by simp)
    rw [List.cons_append, hrest, Tree.itemTokens, ← hrest, ← ih]
    · simp [itemsTaken]
    · simp

theorem membersTaken_append (members : List (Option String × Tree)) (name : Option String) (t : Tree) :
    membersTaken members ++ .string name :: .colon :: t.tokens = Tree.memberTokens (members ++ [(name, t)]) := by
  induction members with
  | nil => rfl
  | cons first members ih =>
    obtain ⟨second, rest, hrest⟩ := List.exists_cons_of_ne_nil (l := members ++ [(name, t)]) (by simp)
    rw [List.cons_append, hrest, Tree.memberTokens, ← hrest, ← ih]
    · simp [membersTaken]
    · simp

/-- The tokens that led to the containers that are open. -/
def framesTaken : List Frame → List Token
  | [] => []
  | .array items :: outer => framesTaken outer ++ .openArray :: itemsTaken items.reverse
  | .object members name :: outer =>
    framesTaken outer ++ .openObject :: (membersTaken members.reverse ++ [.string name, .colon])

/-- The tokens that led to a state. -/
def taken : State → List Token
  | .value outer => framesTaken outer
  | .arrayStart outer => framesTaken outer ++ [.openArray]
  | .objectStart outer => framesTaken outer ++ [.openObject]
  | .name members outer => framesTaken outer ++ .openObject :: membersTaken members.reverse
  | .colon members name outer =>
    framesTaken outer ++ .openObject :: (membersTaken members.reverse ++ [.string name])
  | .after t outer => framesTaken outer ++ t.tokens

theorem taken_openValue (limit : Option Nat) (outer : List Frame) (token : Token) (s : State)
    (h : openValue limit outer token = some s) : taken s = framesTaken outer ++ [token] := by
  cases token with
  | null | bool b | number n | string t =>
    obtain rfl := Option.some.inj h
    rfl
  | openArray | openObject =>
    simp only [openValue] at h
    split at h
    · obtain rfl := Option.some.inj h
      rfl
    · cases h
  | closeArray | closeObject | colon | comma => cases h

theorem taken_close (t : Tree) (outer : List Frame) (token : Token) (s : State)
    (h : close t outer token = some s) : taken s = framesTaken outer ++ t.tokens ++ [token] := by
  unfold close at h
  split at h
  · obtain rfl := Option.some.inj h
    simp [taken, framesTaken, itemsTaken]
  · obtain rfl := Option.some.inj h
    simp [taken, framesTaken, Tree.tokens, ← itemsTaken_append]
  · obtain rfl := Option.some.inj h
    simp [taken, framesTaken, membersTaken]
  · obtain rfl := Option.some.inj h
    simp [taken, framesTaken, Tree.tokens, ← membersTaken_append]
  · cases h

theorem taken_step (limit : Option Nat) (s s' : State) (token : Token) (h : step limit s token = some s') :
    taken s' = taken s ++ [token] := by
  unfold step at h
  split at h
  · exact taken_openValue limit _ _ _ h
  · obtain rfl := Option.some.inj h
    simp [taken, Tree.tokens, Tree.itemTokens]
  · rw [taken_openValue limit _ _ _ h]
    simp [taken, framesTaken, itemsTaken]
  · obtain rfl := Option.some.inj h
    simp [taken, Tree.tokens, Tree.memberTokens]
  · obtain rfl := Option.some.inj h
    simp [taken, membersTaken]
  · obtain rfl := Option.some.inj h
    simp [taken]
  · obtain rfl := Option.some.inj h
    simp [taken, framesTaken]
  · exact taken_close _ _ _ _ h
  · cases h

theorem taken_foldlM (limit : Option Nat) (tokens : List Token) (s s' : State)
    (h : tokens.foldlM (step limit) s = some s') : taken s' = taken s ++ tokens := by
  induction tokens generalizing s with
  | nil =>
    obtain rfl := Option.some.inj h
    rw [List.append_nil]
  | cons token tokens ih =>
    rw [List.foldlM_cons, Option.bind_eq_bind] at h
    obtain ⟨next, hnext, hrest⟩ := Option.bind_eq_some_iff.1 h
    rw [ih next hrest, taken_step limit s next token hnext, List.append_assoc]
    rfl

/-- A tree is read from its own tokens and from no others. -/
theorem tokens_of_tree? (limit : Option Nat) (tokens : List Token) (t : Tree)
    (h : tree? limit tokens = some t) : t.tokens = tokens := by
  obtain ⟨s, hfold, hfinish⟩ := Option.bind_eq_some_iff.1 h
  have htaken := taken_foldlM limit tokens _ s hfold
  unfold finish? at hfinish
  split at hfinish
  · obtain rfl := Option.some.inj hfinish
    exact htaken
  · cases hfinish

theorem tree?_eq_some_iff (limit : Option Nat) (tokens : List Token) (t : Tree) :
    tree? limit tokens = some t ↔ t.tokens = tokens ∧ Room limit t.depth := by
  constructor
  · intro h
    have htokens := tokens_of_tree? limit tokens t h
    rw [← htokens, tree?_tokens_iff] at h
    exact ⟨htokens, h⟩
  · rintro ⟨rfl, hroom⟩
    exact (tree?_tokens_iff limit t).2 hroom

end Parser

theorem Lexer.Lexes.tokens? {text : List Char} {tokens : List Token} (h : Lexes text tokens) :
    tokens? text = some tokens := by
  obtain ⟨s, hs, hsettle⟩ := h []
  rw [Lexer.tokens?, start, hs, Option.bind_some, hsettle, Option.map_some, List.append_nil,
    List.reverse_reverse]

namespace Tree

theorem ofText?_of_written {t : Tree} {cs : List Char} (h : t.Written cs) : ofText? (String.ofList cs) = some t := by
  rw [ofText?, String.toList_ofList, (Lexer.lexes_written t cs h).tokens?, Option.bind_some, Parser.tree?_tokens]

/-- Any tree can be read from its compact text. -/
theorem ofText?_compactText (t : Tree) : ofText? t.compactText = some t.reread :=
  ofText?_of_written (Printer.written_compact t)

/-- Any tree can be read from its pretty text. -/
theorem ofText?_prettyText (t : Tree) : ofText? t.prettyText = some t.reread :=
  ofText?_of_written (Printer.written_pretty 0 t)

end Tree

end CardIndex.Json
