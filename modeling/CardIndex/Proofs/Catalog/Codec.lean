import CardIndex.Catalog.Table
import CardIndex.Proofs.Dataset.Codec
import CardIndex.Proofs.Enrichment
import CardIndex.Proofs.Entries
import CardIndex.Proofs.Json.Bounds

namespace CardIndex

open Json Json.Tree

namespace Item

def numbers (i : Item) : List Binary64 := i.might.toList ++ i.price.toList ++ i.foilPrice.toList

structure Storable (i : Item) : Prop where
  energy : ∀ n ∈ i.energy, n < UInt64.size
  numbers : ∀ x ∈ i.numbers, x.ReadsBack

theorem ofTree?_toTree (i : Item) (h : i.Storable) : ofTree? i.toTree.reread = some i := by
  have hnumbers := h.numbers
  simp only [numbers, List.mem_append, Option.mem_toList] at hnumbers
  have henergy := optional?_natural i.energy h.energy
  have hmight := optional?_binary64 i.might fun x hx => hnumbers x (.inl (.inl hx))
  have hprice := optional?_binary64 i.price fun x hx => hnumbers x (.inl (.inr hx))
  have hfoil := optional?_binary64 i.foilPrice fun x hx => hnumbers x (.inr hx)
  rw [ofTree?, toTree, bind_fields?_reread]
  · simp [Fields.required_cons, Fields.nullable_cons, henergy, hmight, hprice, hfoil]
  · rfl
  · decide

/-- The energy of an item that was read has 64 bits. -/
theorem energy_lt_of_ofTree? (t : Tree) (ht : t.Fits) :
    ∀ i, ofTree? t = some i → ∀ n ∈ i.energy, n < UInt64.size := by
  unfold ofTree?
  refine forall_of_bind fun fields hfields => ?_
  have hfit := fits_of_fields? _ t fields ht hfields
  -- the energy is the eighth of the fields
  iterate 7 refine forall_of_bind fun _ _ => ?_
  refine forall_of_bind fun energy henergy => ?_
  iterate 23 refine forall_of_bind fun _ _ => ?_
  intro i hi
  obtain rfl := Option.some.inj hi
  exact optional?_natural?_lt _ (fits_lookup fields _ hfit) energy henergy

end Item

/-- The item of a card holds the card's numbers and no other. -/
theorem Card.Storable.toItem {c : Card} (h : c.Storable) (now : Timestamp) : (c.toItem now).Storable :=
  ⟨h.energy, h.numbers⟩

namespace Table

def Storable (table : Table) : Prop := ∀ e ∈ table, e.2.Storable

theorem reread_toTree (table : Table) :
    table.toTree.reread = .object (table.map fun (slug, item) => (some slug, item.toTree.reread)) := by
  rw [toTree, reread_record, record, List.map_map, List.map_map]
  rfl

/-- The members of an ordered table are appended one by one. -/
theorem ofMembers?_map (sofar rest : Table) (hordered : Entries.Ordered (sofar ++ rest))
    (hstorable : rest.Storable) :
    ofMembers? sofar (rest.map fun (slug, item) => (some slug, item.toTree.reread)) = some (sofar ++ rest) := by
  induction rest generalizing sofar with
  | nil => rw [List.append_nil]; rfl
  | cons e rest ih =>
    obtain ⟨slug, item⟩ := e
    have hitem := item.ofTree?_toTree (hstorable (slug, item) List.mem_cons_self)
    have hbehind : ∀ e ∈ sofar, e.1 < slug := fun e he =>
      (List.pairwise_append.1 hordered).2.2 e he (slug, item) List.mem_cons_self
    have happend : sofar ++ (slug, item) :: rest = sofar ++ [(slug, item)] ++ rest := by simp
    rw [happend] at hordered ⊢
    have hrest := ih _ hordered fun e he => hstorable e (List.mem_cons_of_mem _ he)
    simp only [List.map_cons, ofMembers?, hitem, Option.bind_eq_bind, Option.bind_some,
      Entries.put_behind slug item sofar hbehind, hrest]

theorem ofTree?_toTree (table : Table) (hordered : Entries.Ordered table) (hstorable : table.Storable) :
    ofTree? table.toTree.reread = some table := by
  rw [reread_toTree]
  exact ofMembers?_map [] table hordered hstorable

/-- The floats of all items. -/
def numbers (table : Table) : List Binary64 := table.flatMap fun (_, item) => item.numbers

theorem mem_ofMembers? (members : List (Option String × Tree)) (sofar table : Table)
    (h : ofMembers? sofar members = some table) (hordered : Entries.Ordered sofar) :
    Entries.Ordered table ∧
      ∀ e ∈ table, e ∈ sofar ∨ ∃ m ∈ members, Item.ofTree? m.2 = some e.2 := by
  induction members generalizing sofar with
  | nil =>
    obtain rfl := Option.some.inj h
    exact ⟨hordered, fun e he => .inl he⟩
  | cons m members ih =>
    obtain ⟨name?, t⟩ := m
    obtain ⟨name, -, h⟩ := Option.bind_eq_some_iff.1 h
    obtain ⟨item, hitem, h⟩ := Option.bind_eq_some_iff.1 h
    obtain ⟨hall, hmem⟩ := ih _ h (Entries.ordered_put name item sofar hordered)
    refine ⟨hall, fun e he => ?_⟩
    rcases hmem e he with he | ⟨m, hm, hread⟩
    · rcases Entries.mem_put name item sofar e he with rfl | he
      · exact .inr ⟨_, List.mem_cons_self, hitem⟩
      · exact .inl he
    · exact .inr ⟨m, List.mem_cons_of_mem _ hm, hread⟩

/-- A table that was read can be written again, if its floats read back. -/
theorem storable_of_ofText? (text : String) (table : Table)
    (h : (Tree.ofText? text).bind ofTree? = some table) (hnumbers : ∀ x ∈ table.numbers, x.ReadsBack) :
    Entries.Ordered table ∧ table.Storable := by
  obtain ⟨t, htext, h⟩ := Option.bind_eq_some_iff.1 h
  have hfits := fits_of_ofText? text t htext
  unfold ofTree? at h
  split at h
  · rename_i members
    obtain ⟨hordered, hmem⟩ := mem_ofMembers? members [] table h Entries.ordered_nil
    refine ⟨hordered, fun e he => ⟨?_, fun x hx => hnumbers x (List.mem_flatMap.2 ⟨e, he, hx⟩)⟩⟩
    rcases hmem e he with he' | ⟨m, hm, hitem⟩
    · cases he'
    · exact Item.energy_lt_of_ofTree? m.2 (hfits.member m hm) e.2 hitem
  · cases h

theorem ordered_putAll (table : Table) (items : List Item) (h : Entries.Ordered table) :
    Entries.Ordered (table.putAll items) := by
  induction items generalizing table with
  | nil => exact h
  | cons i items ih => exact ih _ (Entries.ordered_put i.slug i table h)

theorem storable_putAll (table : Table) (items : List Item) (h : table.Storable)
    (hitems : ∀ i ∈ items, i.Storable) : (table.putAll items).Storable := by
  induction items generalizing table with
  | nil => exact h
  | cons i items ih =>
    refine ih _ (fun e he => ?_) fun j hj => hitems j (List.mem_cons_of_mem i hj)
    rcases Entries.mem_put i.slug i table e he with rfl | he
    · exact hitems i List.mem_cons_self
    · exact h e he

end Table

/-- Everything that is written as JSON is read back as it was, from the compact text and from the pretty one;
the number of a float is assumed to be. What is made of a row can be written: its energy has 64 bits and none
of its floats is infinite or no number. -/
theorem decode_encode :
    (∀ c : Card, c.Storable → Keeps Card.ofTree? c.toTree c) ∧
    (∀ d : Dataset, d.Storable → Keeps Dataset.ofTree? d.toTree d) ∧
    (∀ es : List ManifestEntry, Keeps (list? ManifestEntry.ofTree?) (list ManifestEntry.toTree es) es) ∧
    (∀ table : Table, Entries.Ordered table → table.Storable → Keeps Table.ofTree? table.toTree table) ∧
    ∀ (row : Row) (position : Nat),
      (∀ n ∈ (Card.ofRow row position).cost.energy, n < UInt64.size) ∧
      (∀ x ∈ (Card.ofRow row position).numbers, x.magnitude / Binary64.fractionSize < 2047) ∧
      ((∀ x ∈ (Card.ofRow row position).numbers, x.ReadsBack) →
        Keeps Card.ofTree? (Card.ofRow row position).toTree (Card.ofRow row position)) := by
  refine ⟨fun c h => ?_, fun d h => ?_, fun es => ?_, fun table hordered hstorable => ?_, fun row position => ?_⟩
  · exact keeps_of_reread (c.ofTree?_toTree h)
  · exact keeps_of_reread (d.ofTree?_toTree h)
  · exact keeps_of_reread (ManifestEntry.list?_toTree es)
  · exact keeps_of_reread (table.ofTree?_toTree hordered hstorable)
  · refine ⟨Card.energy_ofRow_lt row position, fun x _ => ?_, fun h => ?_⟩
    · exact Nat.div_lt_of_lt_mul (Nat.mul_comm _ _ ▸ x.finite)
    · exact keeps_of_reread (Card.ofTree?_toTree _ (Card.storable_ofRow row position h))

/-- A name with a quote and a control character, the largest energy and a price with a fraction, in a dataset
and a table of a leap second. -/
theorem decode_encode_of_awkward_row :
    let c := Card.ofRow [("name", .string "\"\x01\u00e9"), ("cost", .string "18446744073709551615[R]"),
      ("price", .string "2.5")] 0
    let now : Timestamp := ⟨⟨2016, 12, 31, by decide, by decide, by decide⟩, 23, 59, 60, 999999999, by decide,
      by decide, by decide, by decide⟩
    (c.Storable ∧ Keeps Card.ofTree? c.toTree c) ∧
    ((Dataset.ofCards now [c]).Storable ∧
      Keeps Dataset.ofTree? (Dataset.ofCards now [c]).toTree (Dataset.ofCards now [c])) ∧
    (Table.Storable [(c.slug, c.toItem now)] ∧
      Keeps Table.ofTree? (Table.toTree [(c.slug, c.toItem now)]) [(c.slug, c.toItem now)]) := by
  intro c now
  have hnumbers : ∀ x ∈ c.numbers, x.ReadsBack := by
    have hlist : c.numbers = [⟨false, 4612811918334230528, by decide⟩] := by decide +kernel
    rw [hlist]
    decide +kernel
  have hcard := Card.storable_ofRow _ 0 hnumbers
  have hdataset : (Dataset.ofCards now [c]).Storable :=
    ⟨by decide, fun d hd => List.mem_singleton.1 hd ▸ hcard⟩
  have htable : Table.Storable [(c.slug, c.toItem now)] := fun e he =>
    List.mem_singleton.1 he ▸ hcard.toItem now
  have hordered : Entries.Ordered [(c.slug, c.toItem now)] := List.pairwise_singleton _ _
  exact ⟨⟨hcard, decode_encode.1 c hcard⟩, ⟨hdataset, decode_encode.2.1 _ hdataset⟩,
    htable, decode_encode.2.2.2.1 _ hordered htable⟩

end CardIndex
