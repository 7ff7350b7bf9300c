import CardIndex.Card.Codec
import CardIndex.Proofs.Json.Fields

namespace CardIndex

open Json Json.Tree

theorem Timing.ofLabel?_label (t : Timing) : ofLabel? t.label = some t := by
  cases t <;> decide

@[simp] theorem Timing.ofTree?_toTree (t : Timing) : ofTree? t.toTree.reread = some t := t.ofLabel?_label

@[simp] theorem Clause.ofTree?_toTree (c : Clause) : ofTree? c.toTree.reread = some c := by
  rw [ofTree?, toTree, bind_fields?_reread]
  · simp [Fields.required_cons]
  · rfl
  · decide

@[simp] theorem Clause.list?_toTree (clauses : List Clause) :
    (list toTree clauses).reread.list? ofTree? = some clauses :=
  list?_list clauses fun c _ => c.ofTree?_toTree

theorem Cost.ofTree?_toTree (c : Cost) (h : ∀ n ∈ c.energy, n < UInt64.size) :
    ofTree? c.toTree.reread = some c := by
  have henergy := optional?_natural c.energy h
  rw [ofTree?, toTree, bind_fields?_reread]
  · simp [Fields.required_cons, Fields.nullable_cons, henergy]
  · rfl
  · decide

@[simp] theorem Activation.ofTree?_toTree (a : Activation) : ofTree? a.toTree.reread = some a := by
  rw [ofTree?, toTree, bind_fields?_reread]
  · simp [Fields.required_cons]
  · rfl
  · decide

@[simp] theorem Assets.ofTree?_toTree (a : Assets) : ofTree? a.toTree.reread = some a := by
  rw [ofTree?, toTree, bind_fields?_reread]
  · simp [Fields.required_cons, Fields.nullable_cons]
  · rfl
  · decide

theorem Pricing.ofTree?_toTree (p : Pricing) (hprice : ∀ x ∈ p.price, x.ReadsBack)
    (hfoil : ∀ x ∈ p.foilPrice, x.ReadsBack) : ofTree? p.toTree.reread = some p := by
  have hprice := optional?_binary64 p.price hprice
  have hfoil := optional?_binary64 p.foilPrice hfoil
  rw [ofTree?, toTree, bind_fields?_reread]
  · simp [Fields.required_cons, Fields.nullable_cons, hprice, hfoil]
  · rfl
  · decide

@[simp] theorem References.ofTree?_toTree (r : References) : ofTree? r.toTree.reread = some r := by
  rw [ofTree?, toTree, bind_fields?_reread]
  · simp [Fields.required_cons, Fields.nullable_cons]
  · rfl
  · decide

namespace Card

/-- The floats of a card. -/
def numbers (c : Card) : List Binary64 :=
  c.might.toList ++ c.pricing.price.toList ++ c.pricing.foilPrice.toList

/-- A card that a JSON text can hold: its natural number has 64 bits and its floats read back. -/
structure Storable (c : Card) : Prop where
  energy : ∀ n ∈ c.cost.energy, n < UInt64.size
  numbers : ∀ x ∈ c.numbers, x.ReadsBack

theorem ofTree?_toTree (c : Card) (h : c.Storable) : ofTree? c.toTree.reread = some c := by
  have hnumbers := h.numbers
  simp only [numbers, List.mem_append, Option.mem_toList] at hnumbers
  have hcost := c.cost.ofTree?_toTree h.energy
  have hmight := optional?_binary64 c.might fun x hx => hnumbers x (.inl (.inl hx))
  have hpricing := c.pricing.ofTree?_toTree (fun x hx => hnumbers x (.inl (.inr hx)))
    fun x hx => hnumbers x (.inr hx)
  rw [ofTree?, toTree, bind_fields?_reread]
  · simp [Fields.required_cons, Fields.nullable_cons, hcost, hmight, hpricing]
  · rfl
  · decide

end Card

end CardIndex
