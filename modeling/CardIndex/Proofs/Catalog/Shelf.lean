import CardIndex.Proofs.Catalog.Delivery

namespace CardIndex

/-- Tables in memory behind a store that can be told what to refuse: for each of its next writes a condition
on items. Behind the last of them it refuses nothing. -/
structure Shelf where
  tables : Tables
  batches : List (List Item)
  refusals : List (Item → Bool)

namespace Shelf

def refuses (s : Shelf) : Item → Bool := s.refusals.headD fun _ => false

/-- Writes what is not refused. What is refused comes back with the latest first. -/
def take (table : String) (batch : List Item) (s : Shelf) : List Item × Shelf :=
  ((batch.filter s.refuses).reverse, {
    tables := s.tables.write table (batch.filter (!s.refuses ·))
    batches := s.batches ++ [batch]
    refusals := s.refusals.tail })

def store : CatalogStore (StateM Shelf) where
  name := "shelf"
  batchWrite table batch := liftM (modifyGet (take table batch) : StateM Shelf (List Item))

/-- The calendar of a shelf stands still just after the start of the year 2000. -/
instance : Clock (StateM Shelf) where
  now := pure ⟨⟨2000, 1, 1, by decide, by decide, by decide⟩, 0, 0, 0, 1,
    by decide, by decide, by decide, by decide⟩
  pause _ := pure ()

def ledger : Ledger Shelf := ⟨fun s => s.tables.holdings, Shelf.batches⟩

/-- Whatever it is told to refuse, a shelf takes the rest. -/
theorem fair : ledger.Fair store := by
  refine ⟨?_, ?_, ?_⟩
  · intro table batch s rest s' h
    have hs : (take table batch s) = (rest, s') := (Attempt.succeeds_lift _ _ _ _).mp h
    unfold take at hs
    obtain ⟨rfl, rfl⟩ := Prod.mk.inj hs
    refine ⟨rfl, batch.filter (!s.refuses ·), ⟨List.filter_sublist, ?_⟩, Tables.holdings_write _ _ _⟩
    have hperm := List.filter_append_perm s.refuses batch
    exact ((List.reverse_perm _).append_left _).trans (List.perm_append_comm.trans hperm)
  · intro s t s' h
    obtain ⟨-, rfl⟩ := Prod.mk.inj h
    exact ⟨rfl, rfl⟩
  · intro d s u s' h
    obtain ⟨-, rfl⟩ := Prod.mk.inj h
    exact ⟨rfl, rfl⟩

/-- Publishes to the table of cards on a shelf. -/
def publisher (chunkSize : Nat) : Publisher (StateM Shelf) := ⟨store, "cards", chunkSize, .standard⟩

end Shelf

/-- A card of which nothing but its slug and name is told. -/
def Card.plain (slug name : String) : Card where
  id := slug
  slug := slug
  name := some name
  kind := none
  rarity := none
  setName := none
  colors := []
  cost := ⟨none, [], none⟩
  might := none
  tags := []
  effect := ""
  flavor := none
  keywords := []
  activation := ⟨.passive, [], [], false, [], false⟩
  rules := []
  assets := ⟨none, "assets/cards/" ++ slug ++ ".webp"⟩
  pricing := ⟨none, none, "USD"⟩
  references := ⟨none, "card-dump"⟩

end CardIndex
