import CardIndex.Dataset.Findings
import CardIndex.Proofs.Card.Numbering

namespace CardIndex

/-- The total is right, no two cards share a slug, and the ids of all clauses tell their cards and places. -/
structure Dataset.Consistent (d : Dataset) : Prop where
  total : d.totalCards = d.cards.length
  slugs : (d.cards.map (·.slug)).Nodup
  clauses : ∀ c ∈ d.cards, c.CountsClauses

/-- What is wrong with the slug of the card at a place: a card in front may have it already. -/
def slugFinding? (cards : List Card) (i : Nat) (c : Card) : Option Finding :=
  if ∃ other ∈ cards.take i, other.slug = c.slug then some (.duplicateSlug c.slug) else none

/-- What is wrong with the id of a card's clause at a place. -/
def clauseFinding? (c : Card) (i : Nat) (clause : Clause) : Option Finding :=
  let expected := c.id ++ "-clause-" ++ toString (i + 1)
  if clause.id = expected then none else some (.misnumberedClause c.id clause.id expected)

namespace Card

theorem misnumbered_eq (c : Card) :
    c.misnumbered = c.rules.zipIdx.filterMap fun (clause, i) => clauseFinding? c i clause := by
  rw [misnumbered, List.mapIdx_eq_zipIdx_map, List.filterMap_map]
  rfl

theorem misnumbered_eq_nil_iff (c : Card) : c.misnumbered = [] ↔ c.CountsClauses := by
  rw [misnumbered_eq, List.filterMap_eq_nil_iff]
  simp only [clauseFinding?, ite_eq_left_iff, reduceCtorEq, imp_false, not_not, Prod.forall,
    List.mk_mem_zipIdx_iff_getElem?]
  exact forall_comm

end Card

/-- The findings on cards behind others are those on all of them together from there on. -/
theorem cardFindings_eq (front cards : List Card) :
    cardFindings (front.map (·.slug)).reverse cards = (cards.zipIdx front.length).flatMap fun (c, i) =>
      (slugFinding? (front ++ cards) i c).toList ++
        c.rules.zipIdx.filterMap fun (clause, k) => clauseFinding? c k clause := by
  induction cards generalizing front with
  | nil => rfl
  | cons c cards ih =>
    have hseen : c.slug :: (front.map (·.slug)).reverse = ((front ++ [c]).map (·.slug)).reverse := by simp
    have htaken : c.slug ∈ (front.map (·.slug)).reverse ↔ ∃ other ∈ front, other.slug = c.slug := by simp
    have hslug : (slugFinding? (front ++ c :: cards) front.length c).toList =
        if c.slug ∈ (front.map (·.slug)).reverse then [.duplicateSlug c.slug] else [] := by
      unfold slugFinding?
      simp only [List.take_left, htaken]
      split <;> rfl
    have hrest := ih (front ++ [c])
    rw [List.length_append, List.length_singleton, List.append_assoc, List.singleton_append] at hrest
    rw [cardFindings, hseen, hrest, ← hslug, c.misnumbered_eq, List.zipIdx_cons, List.flatMap_cons]

theorem cardFindings_eq_nil_iff (seen : List String) (cards : List Card) :
    cardFindings seen cards = [] ↔ ((cards.map (·.slug)).Nodup ∧ ∀ c ∈ cards, c.slug ∉ seen) ∧
      ∀ c ∈ cards, c.CountsClauses := by
  induction cards generalizing seen with
  | nil => simp [cardFindings]
  | cons c cards ih =>
    have hslug : (if c.slug ∈ seen then [Finding.duplicateSlug c.slug] else []) = [] ↔ c.slug ∉ seen := by
      split <;> simp [*]
    have hother : (∀ other ∈ cards, other.slug ∉ c.slug :: seen) ↔
        c.slug ∉ cards.map (·.slug) ∧ ∀ other ∈ cards, other.slug ∉ seen := by
      simp only [List.mem_cons, not_or, List.mem_map, not_exists, not_and]
      exact forall₂_and
    rw [cardFindings, List.append_eq_nil_iff, List.append_eq_nil_iff, hslug, c.misnumbered_eq_nil_iff, ih, hother,
      List.map_cons, List.nodup_cons, List.forall_mem_cons, List.forall_mem_cons]
    tauto

namespace Dataset

/-- A dataset without findings is one that does not contradict itself. In general there is one finding if the total is
wrong and then, card by card, one if a card in front has the slug and one for each clause whose id is not that of its
card and place. On the dataset of a dump there are only the findings on slugs. -/
theorem findings_exact (d : Dataset) (dump : Dump) (now : Timestamp) :
    (d.findings = [] ↔ d.Consistent) ∧
      d.findings = (if d.totalCards = d.cards.length then [] else [.wrongTotal d.totalCards d.cards.length]) ++
        (d.cards.zipIdx.flatMap fun (c, i) => (slugFinding? d.cards i c).toList ++
          c.rules.zipIdx.filterMap fun (clause, k) => clauseFinding? c k clause) ∧
      (ofCards now dump.cards).findings = dump.cards.zipIdx.filterMap fun (c, i) => slugFinding? dump.cards i c := by
  have hall (cards : List Card) := cardFindings_eq [] cards
  simp only [List.map_nil, List.reverse_nil, List.length_nil, List.nil_append] at hall
  refine ⟨?_, ?_, ?_⟩
  · rw [findings, List.append_eq_nil_iff, cardFindings_eq_nil_iff]
    constructor
    · rintro ⟨htotal, ⟨hslugs, -⟩, hclauses⟩
      refine ⟨?_, hslugs, hclauses⟩
      by_contra hne
      rw [if_neg hne] at htotal
      cases htotal
    · rintro ⟨htotal, hslugs, hclauses⟩
      exact ⟨if_pos htotal, ⟨hslugs, fun _ _ => List.not_mem_nil⟩, hclauses⟩
  · rw [findings, hall]
  · rw [findings, ofCards, if_pos rfl, List.nil_append, hall, List.filterMap_eq_flatMap_toList]
    refine List.flatMap_congr ?_
    rintro ⟨c, i⟩ hc
    have hcounts := dump.countsClauses c (List.fst_mem_of_mem_zipIdx hc)
    rw [← c.misnumbered_eq, c.misnumbered_eq_nil_iff.2 hcounts, List.append_nil]

end Dataset

end CardIndex
