import CardIndex.Enrichment
import Mathlib.Data.List.DropRight
import Mathlib.Data.List.Nodup

namespace CardIndex

namespace Effect

/-- The card and the number that an id of a clause is made of. Digits that are no number's own, such as those with a
zero in front, make no id. -/
def clauseSource? (id : String) : Option (String × Nat) :=
  let front := id.toList.rdropWhile Char.isDigit
  let card := String.ofList (front.rdrop "-clause-".length)
  let n := Nat.ofDigitChars 10 (id.toList.rtakeWhile Char.isDigit) 0
  if clauseId card n = id then some (card, n) else none

theorem toList_clauseId (card : String) (n : Nat) :
    (clauseId card n).toList = (card.toList ++ "-clause-".toList) ++ Nat.toDigits 10 n := by
  rw [clauseId, String.toList_append, String.toList_append, Nat.toString_eq_repr, Nat.toList_repr]

/-- The digits of the number end where the hyphen stands before them, even if the card's own id ends with digits. -/
theorem digits_clauseId (card : String) (n : Nat) :
    (clauseId card n).toList.rtakeWhile Char.isDigit = Nat.toDigits 10 n ∧
      (clauseId card n).toList.rdropWhile Char.isDigit = card.toList ++ "-clause-".toList := by
  have hdigits : ∀ c ∈ (Nat.toDigits 10 n).reverse, c.isDigit := fun c hc =>
    Nat.isDigit_of_mem_toDigits (by decide) (by decide) (List.mem_reverse.1 hc)
  have hfront : (card.toList ++ "-clause-".toList).reverse = '-' :: ("-clause".toList.reverse ++ card.toList.reverse) := by
    rw [List.reverse_append]
    rfl
  have htext : (clauseId card n).toList.reverse =
      (Nat.toDigits 10 n).reverse ++ '-' :: ("-clause".toList.reverse ++ card.toList.reverse) := by
    rw [toList_clauseId, List.reverse_append, hfront]
  have hhyphen : ¬ Char.isDigit '-' := by decide
  constructor
  · rw [List.rtakeWhile, htext, List.takeWhile_append_of_pos hdigits, List.takeWhile_cons_of_neg hhyphen,
      List.append_nil, List.reverse_reverse]
  · rw [List.rdropWhile, htext, List.dropWhile_append_of_pos hdigits, List.dropWhile_cons_of_neg hhyphen, ← hfront,
      List.reverse_reverse]

theorem clauseSource?_clauseId (card : String) (n : Nat) : clauseSource? (clauseId card n) = some (card, n) := by
  obtain ⟨hdigits, hfront⟩ := digits_clauseId card n
  have hcard : (card.toList ++ "-clause-".toList).rdrop "-clause-".length = card.toList := by
    rw [List.rdrop, List.length_append, String.length_toList (s := "-clause-"), Nat.add_sub_cancel, List.take_left]
  unfold clauseSource?
  dsimp only
  rw [hdigits, hfront, hcard, String.ofList_toList, Nat.ofDigitChars_ten_toDigits]
  exact if_pos rfl

theorem clauseSource?_eq_some_iff (id card : String) (n : Nat) :
    clauseSource? id = some (card, n) ↔ id = clauseId card n := by
  constructor
  · intro h
    unfold clauseSource? at h
    dsimp only at h
    split at h
    · rename_i hid
      obtain ⟨rfl, rfl⟩ := Prod.mk.inj (Option.some.inj h)
      exact hid.symm
    · cases h
  · rintro rfl
    exact clauseSource?_clauseId card n

theorem clauseId_inj {card card' : String} {n n' : Nat} (h : clauseId card n = clauseId card' n') :
    card = card' ∧ n = n' := by
  have hsource := clauseSource?_clauseId card n
  rw [h, clauseSource?_clauseId] at hsource
  obtain ⟨rfl, rfl⟩ := Prod.mk.inj (Option.some.inj hsource)
  exact ⟨rfl, rfl⟩

end Effect

namespace Card

/-- The ids of a card's clauses tell the card and count from one. -/
def CountsClauses (c : Card) : Prop :=
  ∀ (i : Nat) (clause : Clause), c.rules[i]? = some clause → clause.id = c.id ++ "-clause-" ++ toString (i + 1)

theorem countsClauses_ofRow (row : Row) (position : Nat) : (ofRow row position).CountsClauses := by
  intro i clause hclause
  have hrules : (ofRow row position).rules = Effect.clauses (ofRow row position).id (ofRow row position).effect := rfl
  rw [hrules, Effect.clauses, List.getElem?_mapIdx] at hclause
  obtain ⟨text, -, rfl⟩ := Option.map_eq_some_iff.1 hclause
  rfl

/-- The ids of a card's clauses, in order. -/
def clauseIds (c : Card) : List String := c.rules.map (·.id)

theorem CountsClauses.clauseIds {c : Card} (h : c.CountsClauses) :
    c.clauseIds = (List.range c.rules.length).map fun i => Effect.clauseId c.id (i + 1) := by
  refine List.ext_getElem? fun i => ?_
  rw [Card.clauseIds, List.getElem?_map, List.getElem?_map]
  by_cases hi : i < c.rules.length
  · rw [List.getElem?_range hi, List.getElem?_eq_getElem hi]
    exact congrArg some (h i _ (List.getElem?_eq_getElem hi))
  · rw [List.getElem?_eq_none (Nat.le_of_not_lt hi), List.getElem?_eq_none (by simpa using hi)]
    rfl

theorem CountsClauses.nodup {c : Card} (h : c.CountsClauses) : c.clauseIds.Nodup := by
  rw [h.clauseIds]
  refine List.nodup_range.map ?_
  intro i j hij
  exact Nat.succ_injective (Effect.clauseId_inj hij).2

theorem CountsClauses.eq_of_mem {c c' : Card} (h : c.CountsClauses) (h' : c'.CountsClauses) {id : String}
    (hid : id ∈ c.clauseIds) (hid' : id ∈ c'.clauseIds) : c.id = c'.id := by
  rw [h.clauseIds] at hid
  rw [h'.clauseIds] at hid'
  obtain ⟨i, -, rfl⟩ := List.mem_map.1 hid
  obtain ⟨j, -, hj⟩ := List.mem_map.1 hid'
  exact (Effect.clauseId_inj hj).1.symm

/-- Cards with ids of their own have clauses with ids of their own. -/
theorem nodup_flatMap_clauseIds {cards : List Card} (hcards : ∀ c ∈ cards, c.CountsClauses)
    (hids : (cards.map (·.id)).Nodup) : (cards.flatMap clauseIds).Nodup := by
  rw [List.nodup_flatMap]
  refine ⟨fun c hc => (hcards c hc).nodup, ?_⟩
  rw [List.Nodup, List.pairwise_map] at hids
  refine hids.imp_of_mem ?_
  intro c c' hc hc' hne id hid hid'
  exact hne ((hcards c hc).eq_of_mem (hcards c' hc') hid hid')

end Card

namespace Dump

theorem countsClauses (dump : Dump) : ∀ c ∈ dump.cards, c.CountsClauses := by
  intro c hc
  obtain ⟨i, hi, rfl⟩ := List.mem_mapIdx.1 hc
  exact Card.countsClauses_ofRow _ i

/-- Where the cards of a dump have ids of their own, so have all clauses of all cards; and each id of a clause gives
back the id of its card and the place of the clause in it, counted from one. -/
theorem clauses_identified (dump : Dump) (h : (dump.cards.map (·.id)).Nodup) :
    (dump.cards.flatMap Card.clauseIds).Nodup ∧
      ∀ c ∈ dump.cards, ∀ (i : Nat) (clause : Clause), c.rules[i]? = some clause →
        Effect.clauseSource? clause.id = some (c.id, i + 1) := by
  refine ⟨Card.nodup_flatMap_clauseIds dump.countsClauses h, ?_⟩
  intro c hc i clause hclause
  rw [Effect.clauseSource?_eq_some_iff]
  exact dump.countsClauses c hc i clause hclause

/-- A card's id looks like that of another's clause, and a card is named for its position. -/
def lookalikes : Dump where
  names := ["id", "text"]
  rows := [[.string "a", .string "One. Two."], [.string "a-clause-1", .string "Three."], [.null, .string "Four."]]

theorem clauses_identified_of_lookalikes : (lookalikes.cards.map (·.id)).Nodup ∧
    (lookalikes.cards.flatMap Card.clauseIds).Nodup ∧
      lookalikes.cards.flatMap Card.clauseIds =
        ["a-clause-1", "a-clause-2", "a-clause-1-clause-1", "row-3-clause-1"] ∧
        Effect.clauseSource? "a-clause-1-clause-1" = some ("a-clause-1", 1) := by
  have hids : (lookalikes.cards.map (·.id)).Nodup := by decide +kernel
  obtain ⟨hclauses, hsource⟩ := clauses_identified lookalikes hids
  obtain ⟨c, hc, clause, hclause, hid, hcard⟩ : ∃ c, lookalikes.cards[1]? = some c ∧
      ∃ clause, c.rules[0]? = some clause ∧ clause.id = "a-clause-1-clause-1" ∧ c.id = "a-clause-1" :=
    ⟨_, rfl, _, rfl, by decide +kernel, by decide +kernel⟩
  refine ⟨hids, hclauses, by decide +kernel, ?_⟩
  rw [← hid, hsource c (List.mem_of_getElem? hc) 0 clause hclause, hcard]

end Dump

end CardIndex
