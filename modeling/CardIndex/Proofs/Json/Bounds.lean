import CardIndex.Proofs.Json.Fields
import CardIndex.Proofs.Json.Tokens

namespace CardIndex.Json

/-- An integer of 64 bits, with or without a sign, or a decimal. -/
def Numeral.Fits : Numeral → Prop
  | .integer n => Int64.minValue.toInt ≤ n ∧ n < UInt64.size
  | .decimal _ _ _ => True

theorem Numeral.fits_ofWhole (negative : Bool) (whole : List Char) : (ofWhole negative whole).Fits := by
  have hmin : Int64.minValue.toInt < 0 := by decide
  unfold ofWhole
  dsimp only
  split
  · split
    · rename_i h
      exact ⟨h.2, by omega⟩
    · trivial
  · split
    · exact ⟨by omega, by omega⟩
    · trivial

theorem Numeral.fits_of_ofText? (text : List Char) (n : Numeral) (h : ofText? text = some n) : n.Fits := by
  unfold ofText? at h
  split at h
  dsimp only at h
  split at h
  · cases h
  · split at h
    · obtain rfl := Option.some.inj h
      exact fits_ofWhole _ _
    · split at h
      · cases h
      · obtain ⟨e, -, rfl⟩ := Option.map_eq_some_iff.1 h
        trivial
    · obtain ⟨e, -, rfl⟩ := Option.map_eq_some_iff.1 h
      trivial

namespace Lexer

/-- No token is an integer of more than 64 bits. -/
def Fit (tokens : List Token) : Prop := ∀ n, Token.number n ∈ tokens → n.Fits

theorem Fit.cons {tokens : List Token} (h : Fit tokens) (t : Token) (ht : ∀ n, t = .number n → n.Fits) :
    Fit (t :: tokens) := by
  intro n hn
  rcases List.mem_cons.1 hn with hn | hn
  · exact ht n hn.symm
  · exact h n hn

end Lexer

theorem Spelled.fit {cs : List Char} {tokens : List Token} (h : Spelled cs tokens) : Lexer.Fit tokens := by
  induction h with
  | nil => exact fun n hn => by cases hn
  | space _ _ ih => exact ih
  | token htoken _ ih =>
    refine ih.cons _ fun n hn => ?_
    subst hn
    exact Numeral.fits_of_ofText? _ n ((numberText_iff _ n).1 htoken)

namespace Tree

/-- No number of the tree is an integer of more than 64 bits. -/
def Fits (t : Tree) : Prop := Lexer.Fit t.tokens

theorem fits_of_ofText? (s : String) (t : Tree) (h : ofText? s = some t) : t.Fits := by
  obtain ⟨tokens, hlex, hparse⟩ := Option.bind_eq_some_iff.1 h
  rw [Fits, Parser.tokens_of_tree? none tokens t hparse]
  exact (Lexer.spelled_tokens? hlex).fit

theorem tokens_subset_itemTokens (items : List Tree) : ∀ t ∈ items, t.tokens ⊆ itemTokens items := by
  induction items with
  | nil => intro t ht; cases ht
  | cons first items ih =>
    cases items with
    | nil =>
      intro t ht
      rw [List.mem_singleton.1 ht]
      exact List.Subset.refl _
    | cons second items =>
      intro t ht
      rcases List.mem_cons.1 ht with rfl | ht
      · exact List.subset_append_left _ _
      · exact fun token htoken => List.mem_append_right _ (List.mem_cons_of_mem _ (ih t ht htoken))

theorem tokens_subset_memberTokens (members : List (Option String × Tree)) :
    ∀ m ∈ members, m.2.tokens ⊆ memberTokens members := by
  induction members with
  | nil => intro m hm; cases hm
  | cons first members ih =>
    obtain ⟨name, t⟩ := first
    cases members with
    | nil =>
      intro m hm
      rw [List.mem_singleton.1 hm]
      exact fun token htoken => List.mem_cons_of_mem _ (List.mem_cons_of_mem _ htoken)
    | cons second members =>
      intro m hm
      rcases List.mem_cons.1 hm with rfl | hm
      · exact fun token htoken =>
          List.mem_append_left _ (List.mem_cons_of_mem _ (List.mem_cons_of_mem _ htoken))
      · exact fun token htoken => List.mem_append_right _ (List.mem_cons_of_mem _ (ih m hm htoken))

theorem Fits.item {items : List Tree} (h : (array items).Fits) : ∀ t ∈ items, t.Fits := by
  intro t ht n hn
  refine h n ?_
  rw [tokens]
  exact List.mem_append_left _ (List.mem_cons_of_mem _ (tokens_subset_itemTokens items t ht hn))

theorem Fits.member {members : List (Option String × Tree)} (h : (object members).Fits) :
    ∀ m ∈ members, m.2.Fits := by
  intro m hm n hn
  refine h n ?_
  rw [tokens]
  exact List.mem_append_left _ (List.mem_cons_of_mem _ (tokens_subset_memberTokens members m hm hn))

theorem natural?_lt (t : Tree) (h : t.Fits) : ∀ n ∈ t.natural?, n < UInt64.size := by
  intro n hn
  unfold natural? at hn
  split at hn
  · rename_i k
    split at hn
    · obtain rfl := Option.some.inj hn
      have hk : (Numeral.integer k).Fits := h _ List.mem_cons_self
      have hhigh := hk.2
      omega
    · cases hn
  · cases hn

theorem optional?_natural?_lt (t : Tree) (h : t.Fits) (o : Option Nat) (ho : t.optional? natural? = some o) :
    ∀ n ∈ o, n < UInt64.size := by
  unfold optional? at ho
  split at ho
  · obtain rfl := Option.some.inj ho
    intro n hn
    cases hn
  · obtain ⟨m, hm, rfl⟩ := Option.map_eq_some_iff.1 ho
    intro n hn
    obtain rfl := Option.some.inj hn
    exact natural?_lt t h m hm

theorem exists_of_mem_mapM {α β : Type} {f : α → Option β} {as : List α} {bs : List β}
    (h : as.mapM f = some bs) : ∀ b ∈ bs, ∃ a ∈ as, f a = some b := by
  induction as generalizing bs with
  | nil =>
    obtain rfl := Option.some.inj h
    intro b hb
    cases hb
  | cons a as ih =>
    rw [List.mapM_cons] at h
    obtain ⟨b, hb, h⟩ := Option.bind_eq_some_iff.1 h
    obtain ⟨bs', hbs, h⟩ := Option.bind_eq_some_iff.1 h
    obtain rfl := Option.some.inj h
    intro c hc
    rcases List.mem_cons.1 hc with rfl | hc
    · exact ⟨a, List.mem_cons_self, hb⟩
    · obtain ⟨a', ha', hc'⟩ := ih hbs c hc
      exact ⟨a', List.mem_cons_of_mem a ha', hc'⟩

theorem mem_of_knownMembers? {names : List String} {members : List (Option String × Tree)} {fields : Fields}
    (h : knownMembers? names members = some fields) : ∀ f ∈ fields, (some f.1, f.2) ∈ members := by
  intro f hf
  obtain ⟨named, hnamed, hknown⟩ := Option.bind_eq_some_iff.1 h
  simp only at hknown
  split at hknown
  · obtain rfl := Option.some.inj hknown
    obtain ⟨⟨name?, t⟩, hm, hname⟩ := exists_of_mem_mapM hnamed f (List.mem_filter.1 hf).1
    obtain ⟨name, rfl, rfl⟩ := Option.map_eq_some_iff.1 hname
    exact hm
  · cases hknown

/-- The fields of a structure are parts of its tree. -/
theorem fits_of_fields? (names : List String) (t : Tree) (fields : Fields) (h : t.Fits)
    (hfields : t.fields? names = some fields) : ∀ f ∈ fields, f.2.Fits := by
  intro f hf
  unfold fields? at hfields
  split at hfields
  · exact h.member _ (mem_of_knownMembers? hfields f hf)
  · rename_i items
    split at hfields
    · obtain rfl := Option.some.inj hfields
      exact h.item f.2 (List.of_mem_zip hf).2
    · cases hfields
  · cases hfields

theorem fits_lookup (fields : Fields) (name : String) (h : ∀ f ∈ fields, f.2.Fits) :
    ((fields.lookup name).getD null).Fits := by
  induction fields with
  | nil =>
    intro n hn
    cases List.mem_singleton.1 hn
  | cons f fields ih =>
    obtain ⟨other, t⟩ := f
    rw [List.lookup_cons]
    split
    · exact h _ List.mem_cons_self
    · exact ih fun f hf => h f (List.mem_cons_of_mem _ hf)

end Tree

/-- What holds of a structure once all its fields are read holds of all that is read. -/
theorem forall_of_bind {α β : Type} {P : β → Prop} {x : Option α} {f : α → Option β}
    (h : ∀ a, x = some a → ∀ b, f a = some b → P b) : ∀ b, (x >>= f) = some b → P b := by
  intro b hb
  obtain ⟨a, ha, hb⟩ := Option.bind_eq_some_iff.1 hb
  exact h a ha b hb

end CardIndex.Json
