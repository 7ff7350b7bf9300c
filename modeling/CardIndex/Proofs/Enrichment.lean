import CardIndex.Enrichment
import CardIndex.Proofs.Card.Codec
import CardIndex.Proofs.Cost

namespace CardIndex

namespace Card

/-- The energy of a card that comes from a row has 64 bits, however many digits the cell has. -/
theorem energy_ofRow_lt (row : Row) (position : Nat) :
    ∀ n ∈ (ofRow row position).cost.energy, n < UInt64.size :=
  Cost.energyOf_lt _

theorem storable_ofRow (row : Row) (position : Nat) (h : ∀ x ∈ (ofRow row position).numbers, x.ReadsBack) :
    (ofRow row position).Storable :=
  ⟨energy_ofRow_lt row position, h⟩

end Card

/-- All cards of a dump can be written, if their floats read back. -/
theorem Dump.storable_cards (dump : Dump) (h : ∀ c ∈ dump.cards, ∀ x ∈ c.numbers, x.ReadsBack) :
    ∀ c ∈ dump.cards, c.Storable := by
  intro c hc
  have hnumbers := h c hc
  obtain ⟨i, hi, rfl⟩ := List.mem_mapIdx.1 hc
  exact Card.storable_ofRow _ i hnumbers

end CardIndex
