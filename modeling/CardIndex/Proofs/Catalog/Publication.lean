import CardIndex.Proofs.Catalog.Shelf

namespace CardIndex

/-- The last item sent of each slug is the last of the chunks, if what is handed back is trailing. -/
theorem latest_of_resent {chunks : List (List Item)} {sents : List (List (List Item))}
    (h : List.Forall₂ (Resent Trailing) chunks sents) (slug : String) :
    latest sents.flatten.flatten slug = latest chunks.flatten slug := by
  induction h with
  | nil => rfl
  | cons hc _ ih =>
    rw [List.flatten_cons, List.flatten_append, List.flatten_cons, latest_append, latest_append, ih,
      hc.latest_flatten (fun _ _ ht => ht)]

private theorem isSome_latest_of_resent {handsBack : List Item → List Item → Prop}
    {chunks : List (List Item)} {sents : List (List (List Item))}
    (h : List.Forall₂ (Resent handsBack) chunks sents) (slug : String)
    (hs : (latest chunks.flatten slug).isSome) : (latest sents.flatten.flatten slug).isSome := by
  induction h with
  | nil => cases hs
  | cons hc _ ih =>
    rw [List.flatten_cons, latest_append, Option.isSome_or, Bool.or_eq_true] at hs
    rw [List.flatten_cons, List.flatten_append, latest_append, Option.isSome_or, Bool.or_eq_true]
    exact hs.imp ih (hc.isSome_latest slug)

private theorem trailing_of_distinct {chunks : List (List Item)} {sents : List (List (List Item))}
    (h : List.Forall₂ (Resent fun batch rest => ∃ taken, Splits batch taken rest) chunks sents)
    (hd : ∀ chunk ∈ chunks, (chunk.map Item.slug).Nodup) :
    List.Forall₂ (Resent Trailing) chunks sents := by
  induction h with
  | nil => exact .nil
  | cons hc _ ih =>
    refine .cons (hc.trailing_of_nodup (hd _ List.mem_cons_self)) (ih ?_)
    exact fun chunk hchunk => hd chunk (List.mem_cons_of_mem _ hchunk)

section

variable {σ : Type} [Clock (StateM σ)]

/-- The time that the clock shows in a state. -/
def timeAt (s : σ) : Timestamp := (Id.run ((Clock.now : StateM σ Timestamp).run s)).1

theorem publish_succeeds {l : Ledger σ} {p : Publisher (StateM σ)}
    {handsBack : List Item → List Item → Prop} (fair : l.Fair p.store)
    (hp : Ledger.HandsBack p handsBack) {cards : List Card} {s s' : σ} {report : PublishReport}
    (done : (p.publish cards).Succeeds s report s') :
    let chunks := chunksOf p.chunkSize (cards.map (·.toItem (timeAt s)))
    ∃ sents, List.Forall₂ (Resent handsBack) chunks sents ∧ l.Wrote p s s' sents.flatten ∧
      report.totalItems = cards.length ∧ report.uploaded = cards.length ∧
      report.chunks = chunks.length ∧
      ∃ retries, report.retries = UInt32.ofNat retries ∧ retries + chunks.length = sents.flatten.length := by
  simp only [Publisher.publish, Attempt.succeeds_bind, Attempt.succeeds_lift,
    Attempt.succeeds_pure] at done
  obtain ⟨now, t, hnow, retries, t', hchunks, rfl, rfl⟩ := done
  have htime : timeAt s = now := by
    unfold timeAt
    rw [hnow]
  obtain ⟨sents, hsents, hwrote, hcount⟩ := Ledger.writeChunks_succeeds fair hp _ _ _ _ _ hchunks
  rw [htime]
  exact ⟨sents, hsents, (Ledger.wrote_nil (fair.now _ _ _ hnow)).trans hwrote, rfl, rfl, rfl, retries, rfl, hcount⟩

/-- A run that succeeds overwrites the table with all cards in their order, and nothing else. The size of
the chunks and what was refused show in the report only. -/
theorem publish_overwrites_table (l : Ledger σ) (p : Publisher (StateM σ)) (fair : l.Fair p.store)
    (cards : List Card) (s s' : σ) (report : PublishReport)
    (distinct : ∀ chunk ∈ chunksOf p.chunkSize cards, (chunk.map Card.slug).Nodup)
    (done : (p.publish cards).Succeeds s report s') :
    (∀ slug, l.holdings s' p.table slug =
      (latest (cards.map (·.toItem (timeAt s))) slug).or (l.holdings s p.table slug)) ∧
    (∀ other, other ≠ p.table → l.holdings s' other = l.holdings s other) ∧
    report.totalItems = cards.length ∧ report.uploaded = cards.length ∧
    report.chunks = (cards.length + max p.chunkSize 1 - 1) / max p.chunkSize 1 ∧
    ∃ retries, (l.batches s').length = (l.batches s).length + (report.chunks + retries) ∧
      report.retries = UInt32.ofNat retries ∧ (retries < UInt32.size → report.retries = retries) := by
  have hp : Ledger.HandsBack p fun batch rest => ∃ taken, Splits batch taken rest := by
    intro batch t rest t' hw
    obtain ⟨_, taken, hsplit, _⟩ := fair.write _ _ _ _ _ hw
    exact ⟨taken, hsplit⟩
  obtain ⟨sents, hsents, hwrote, htotal, huploaded, hchunks, retries, hretries, hcount⟩ := publish_succeeds fair hp done
  have hdistinct : ∀ chunk ∈ chunksOf p.chunkSize (cards.map (·.toItem (timeAt s))),
      (chunk.map Item.slug).Nodup := by
    intro chunk hchunk
    rw [chunksOf_map, List.mem_map] at hchunk
    obtain ⟨of, hof, rfl⟩ := hchunk
    have hslug : Item.slug ∘ (·.toItem (timeAt s)) = Card.slug := rfl
    rw [List.map_map, hslug]
    exact distinct of hof
  have htrailing := trailing_of_distinct hsents hdistinct
  have hlatest (slug : String) : latest sents.flatten.flatten slug =
      latest (cards.map (·.toItem (timeAt s))) slug := by
    rw [latest_of_resent htrailing, chunksOf_flatten]
  refine ⟨?_, ?_, htotal, huploaded, ?_, ?_⟩
  · intro slug
    rw [hwrote.holdings, ← hlatest]
    simp [Holdings.write]
  · intro other hne
    funext slug
    rw [hwrote.holdings]
    simp [Holdings.write, hne]
  · rw [hchunks, chunksOf_length, List.length_map]
  · refine ⟨retries, ?_, hretries, fun hfits => ?_⟩
    · rw [hwrote.batches, List.length_append]
      omega
    · rw [hretries, UInt32.toNat_ofNat_of_lt' hfits]

/-- A card of a later chunk wins over one of an earlier chunk, though one of each chunk is refused at first. -/
theorem publish_overwrites_table_of_refusals :
    let cards := [Card.plain "a" "First", .plain "b" "Other", .plain "a" "Second"]
    let s : Shelf := ⟨[], [], [(·.slug = "b"), fun _ => false, fun _ => true]⟩
    ∃ s', ((Shelf.publisher 2).publish cards).Succeeds s ⟨3, 2, 2, 3⟩ s' ∧
      Shelf.ledger.holdings s' "cards" "a" = some ((Card.plain "a" "Second").toItem (timeAt s)) ∧
      (Shelf.ledger.batches s').length = 4 := by
  intro cards s
  have hchunks {α : Type} (f : Card → α) : chunksOf 2 (cards.map f) =
      [[f (.plain "a" "First"), f (.plain "b" "Other")], [f (.plain "a" "Second")]] := by
    simp [cards, chunksOf_cons]
  have hdistinct : ∀ chunk ∈ chunksOf 2 cards, (chunk.map Card.slug).Nodup := by
    have hc := hchunks id
    rw [List.map_id] at hc
    rw [hc]
    simp [Card.plain]
  have hdone : ∃ s', ((Shelf.publisher 2).publish cards).Succeeds s ⟨3, 2, 2, 3⟩ s' ∧
      (Shelf.ledger.batches s').length = 4 := by
    unfold Publisher.publish
    simp only [Shelf.publisher, hchunks]
    exact ⟨_, rfl, rfl⟩
  obtain ⟨s', done, hbatches⟩ := hdone
  obtain ⟨hheld, -⟩ :=
    publish_overwrites_table Shelf.ledger (Shelf.publisher 2) Shelf.fair cards s s' _ hdistinct done
  exact ⟨s', done, hheld "a", hbatches⟩

/-- Of several cards with one slug the one that was sent last stays. It is the last of the list exactly if
it was the last to be sent, as it is where no item is handed back for which the store has taken a later one,
and those handed back keep their order. -/
theorem publish_keeps_last_sent (l : Ledger σ) (p : Publisher (StateM σ)) (fair : l.Fair p.store)
    (cards : List Card) (s s' : σ) (report : PublishReport)
    (done : (p.publish cards).Succeeds s report s') :
    let items := cards.map (·.toItem (timeAt s))
    ∃ sent, l.batches s' = l.batches s ++ sent ∧
      (∀ slug ∈ cards.map Card.slug, l.holdings s' p.table slug = latest sent.flatten slug) ∧
      ((∀ slug ∈ cards.map Card.slug, l.holdings s' p.table slug = latest items slug) ↔
        ∀ slug ∈ cards.map Card.slug, latest sent.flatten slug = latest items slug) ∧
      (Ledger.HandsBack p Trailing →
        ∀ slug ∈ cards.map Card.slug, l.holdings s' p.table slug = latest items slug) := by
  intro items
  have hp : Ledger.HandsBack p fun batch rest => Ledger.HandsBack p Trailing → Trailing batch rest :=
    fun _ _ _ _ hw ht => ht _ _ _ _ hw
  obtain ⟨sents, hsents, hwrote, -⟩ := publish_succeeds fair hp done
  have hflat : (chunksOf p.chunkSize items).flatten = items := chunksOf_flatten _ _
  have hheld : ∀ slug ∈ cards.map Card.slug,
      l.holdings s' p.table slug = latest sents.flatten.flatten slug := by
    intro slug hslug
    have hsome : (latest items slug).isSome := by
      rw [Option.isSome_iff_ne_none, Ne, latest_eq_none]
      intro hnone
      obtain ⟨c, hc, rfl⟩ := List.mem_map.mp hslug
      exact hnone _ (List.mem_map.mpr ⟨c, hc, rfl⟩) rfl
    rw [← hflat] at hsome
    have hsent := isSome_latest_of_resent hsents slug hsome
    rw [hwrote.holdings]
    simp [Holdings.write, Option.or_of_isSome hsent]
  refine ⟨sents.flatten, hwrote.batches, hheld, ?_, ?_⟩
  · constructor
    · intro h slug hslug
      rw [← hheld slug hslug, h slug hslug]
    · intro h slug hslug
      rw [hheld slug hslug, h slug hslug]
  · intro ht slug hslug
    have htrailing : List.Forall₂ (Resent Trailing) (chunksOf p.chunkSize items) sents :=
      hsents.imp fun _ _ h => h.imp fun _ _ hb => hb ht
    rw [hheld slug hslug, latest_of_resent htrailing, hflat]

private theorem chunksOf_two {α : Type} (f : Card → α) :
    chunksOf 25 ([Card.plain "a" "First", .plain "a" "Second"].map f) =
      [[f (.plain "a" "First"), f (.plain "a" "Second")]] := by
  simp [chunksOf_cons]

/-- Two cards of one slug that come back in reverse: the first is sent last and stays. -/
theorem publish_keeps_last_sent_of_reversed :
    let cards := [Card.plain "a" "First", .plain "a" "Second"]
    let s : Shelf := ⟨[], [], [fun _ => true]⟩
    ∃ s' sent, ((Shelf.publisher 25).publish cards).Succeeds s ⟨2, 1, 1, 2⟩ s' ∧
      Shelf.ledger.batches s' = sent ∧
      Shelf.ledger.holdings s' "cards" "a" = latest sent.flatten "a" := by
  intro cards s
  have hdone : (Id.run (((Shelf.publisher 25).publish cards).run.run s)).1 = .ok ⟨2, 1, 1, 2⟩ := by
    unfold Publisher.publish
    simp only [Shelf.publisher, cards, chunksOf_two]
    rfl
  obtain ⟨s', done⟩ := Attempt.exists_succeeds hdone
  obtain ⟨sent, hsent, hheld, -⟩ :=
    publish_keeps_last_sent Shelf.ledger (Shelf.publisher 25) Shelf.fair cards s s' _ done
  exact ⟨s', sent, done, hsent, hheld "a" (by simp [cards, Card.plain])⟩

/-- A later card of the same chunk need not win: the table does not hold the last one of the slug. -/
theorem publish_loses_later_card :
    let cards := [Card.plain "a" "First", .plain "a" "Second"]
    let s : Shelf := ⟨[], [], [fun _ => true]⟩
    Shelf.ledger.Fair (Shelf.publisher 25).store ∧
      ∃ s', ((Shelf.publisher 25).publish cards).Succeeds s ⟨2, 1, 1, 2⟩ s' ∧
        Shelf.ledger.holdings s' "cards" "a" ≠ latest (cards.map (·.toItem (timeAt s))) "a" := by
  intro cards s
  have hrun : ∃ s', ((Shelf.publisher 25).publish cards).Succeeds s ⟨2, 1, 1, 2⟩ s' ∧
      Shelf.ledger.holdings s' "cards" "a" = some ((Card.plain "a" "First").toItem (timeAt s)) := by
    unfold Publisher.publish
    simp only [Shelf.publisher, cards, chunksOf_two]
    exact ⟨_, rfl, rfl⟩
  obtain ⟨s', done, hheld⟩ := hrun
  refine ⟨Shelf.fair, s', done, ?_⟩
  have hlatest : latest (cards.map (·.toItem (timeAt s))) "a" =
      some ((Card.plain "a" "Second").toItem (timeAt s)) := rfl
  rw [hheld, hlatest]
  intro heq
  have hname := congrArg Item.name (Option.some.inj heq)
  simp [Card.toItem, Card.plain] at hname

end

end CardIndex
