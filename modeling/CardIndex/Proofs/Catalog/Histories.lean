import Mathlib.Logic.Relation
import CardIndex.Proofs.Catalog.Dialogue

namespace CardIndex

open Attempt

variable {σ τ : Type}

/-- What each step keeps is kept along a sequence of them. -/
theorem kept_along {step : σ → σ → Prop} {holds : σ → Prop} (hstep : ∀ s s', step s s' → holds s → holds s')
    {s s' : σ} (h : Relation.ReflTransGen step s s') (hs : holds s) : holds s' := by
  induction h with
  | refl => exact hs
  | tail _ hlast ih => exact hstep _ _ hlast ih

/-- An item that was made of one of the cards, at any time. -/
def Item.MadeOf (cards : List Card) (i : Item) : Prop := ∃ c ∈ cards, ∃ now, i = c.toItem now

section

variable [Clock (StateM τ)]

/-- All that a run asks of a store or of the clock keeps a condition on states, as long as what it sends meets a
condition on items. What is handed back can be sent again. -/
structure Publisher.Keeping (p : Publisher (StateM τ)) (kind : Item → Prop) (holds : τ → Prop) : Prop where
  call : ∀ batch t answer t', (∀ i ∈ batch, kind i) → Ends (p.store.batchWrite p.table batch) t answer t' →
    holds t → holds t' ∧ ∀ rest, answer = .ok rest → ∀ i ∈ rest, kind i
  now : ∀ t time t', Id.run ((Clock.now : StateM τ Timestamp).run t) = (time, t') → holds t → holds t'
  pause : ∀ d t u t', Id.run ((Clock.pause d : StateM τ Unit).run t) = (u, t') → holds t → holds t'

namespace Publisher.Keeping

variable {p : Publisher (StateM τ)} {kind : Item → Prop} {holds : τ → Prop}

theorem dialogue (keeping : p.Keeping kind holds) {number attempt : Nat} {pauses : List Duration} {batch : List Item}
    {t t' : τ} {calls : List Call} {result : Except Failure Nat}
    (h : Dialogue p number attempt pauses batch t calls result t') (hbatch : ∀ i ∈ batch, kind i)
    (ht : holds t) : holds t' := by
  induction h with
  | last call _ => exact (keeping.call _ _ _ _ hbatch call ht).1
  | again call _ _ _ pause _ ih =>
    -- the next batch is what this call handed back, and so of the kind
    obtain ⟨hcalled, hrest⟩ := keeping.call _ _ _ _ hbatch call ht
    exact ih (hrest _ rfl) (keeping.pause _ _ _ _ pause hcalled)

theorem course (keeping : p.Keeping kind holds) {number : Nat} {chunks : List (List Item)} {t t' : τ}
    {parts : List (List Call)} {result : Except Failure Nat} (h : Course p number chunks t parts result t')
    (hchunks : ∀ chunk ∈ chunks, ∀ i ∈ chunk, kind i) (ht : holds t) : holds t' := by
  induction h with
  | nil => exact ht
  | stop first => exact keeping.dialogue first (hchunks _ List.mem_cons_self) ht
  | next first _ ih =>
    rw [List.forall_mem_cons] at hchunks
    exact ih hchunks.2 (keeping.dialogue first hchunks.1 ht)

/-- Whatever comes of a run, it keeps the condition. -/
theorem publish {cards : List Card} (keeping : p.Keeping (Item.MadeOf cards) holds) {t t' : τ}
    {result : Except Failure PublishReport} (h : Ends (p.publish cards) t result t') (ht : holds t) : holds t' := by
  obtain ⟨started, parts, retries, hnow, hcourse, -⟩ := p.course_of_publish cards t t' result h
  refine keeping.course hcourse (fun chunk hchunk i hi => ?_) (keeping.now _ _ _ hnow ht)
  have hitem : i ∈ cards.map (·.toItem (timeAt t)) := by
    rw [← chunksOf_flatten p.chunkSize (cards.map _)]
    exact List.mem_flatten_of_mem hchunk hi
  obtain ⟨c, hc, rfl⟩ := List.mem_map.1 hitem
  exact ⟨c, hc, timeAt t, rfl⟩

end Publisher.Keeping

/-- A store in front of another. It may write any part of a batch into the other, at once or bit by bit, or none of
it, and may fail as it likes. What it hands back has to be of the batch. -/
structure Fronts (view : τ → σ) (base : CatalogStore (StateM σ)) (front : CatalogStore (StateM τ)) : Prop where
  write : ∀ table batch t answer t', Ends (front.batchWrite table batch) t answer t' →
    Relation.ReflTransGen (fun s s' => ∃ part ⊆ batch, ∃ r, Ends (base.batchWrite table part) s r s') (view t) (view t')
  rest : ∀ table batch t rest t', Ends (front.batchWrite table batch) t (.ok rest) t' → rest ⊆ batch
  now : ∀ t time t', Id.run ((Clock.now : StateM τ Timestamp).run t) = (time, t') → view t' = view t
  pause : ∀ d t u t', Id.run ((Clock.pause d : StateM τ Unit).run t) = (u, t') → view t' = view t

end

/-- What may happen to a store of which all items are made of some cards: a run that publishes such cards through
any store in front of it, in any way and with any result, or a write that adds nothing to a table. -/
inductive Step (base : CatalogStore (StateM σ)) (published : List Card) : σ → σ → Prop
  | publish {τ : Type} [Clock (StateM τ)] {view : τ → σ} {p : Publisher (StateM τ)} {cards : List Card} {t t' : τ}
      {result : Except Failure PublishReport} (front : Fronts view base p.store) (known : cards ⊆ published)
      (run : Ends (p.publish cards) t result t') : Step base published (view t) (view t')
  | rewrite {table : String} {s s' : σ} {answer : Except Failure (List Item)}
      (write : Ends (base.batchWrite table []) s answer s') : Step base published s s'

namespace Step

variable {base : CatalogStore (StateM σ)} {published : List Card} (holds : σ → Prop) {s s' : σ}

/-- What each write of the items keeps, each step keeps. -/
theorem keeps
    (hwrite : ∀ table batch s answer s', (∀ i ∈ batch, i.MadeOf published) →
      Ends (base.batchWrite table batch) s answer s' → holds s → holds s')
    (h : Step base published s s') (hs : holds s) : holds s' := by
  cases h with
  | rewrite write => exact hwrite _ _ _ _ _ (fun i hi => by cases hi) write hs
  | @publish τ _ view p cards t t' result front known run =>
    have hknown : ∀ i : Item, i.MadeOf cards → i.MadeOf published := by
      rintro i ⟨c, hc, now, rfl⟩
      exact ⟨c, known hc, now, rfl⟩
    have hkeeping : p.Keeping (Item.MadeOf cards) (fun t => holds (view t)) := by
      refine ⟨fun batch t answer t' hbatch hcall ht => ⟨?_, ?_⟩, fun t time t' hnow ht => ?_,
        fun d t u t' hpause ht => ?_⟩
      · have hpart : ∀ s s', (∃ part ⊆ batch, ∃ r, Ends (base.batchWrite p.table part) s r s') →
            holds s → holds s' := by
          rintro s s' ⟨part, hpart, answer, hwritten⟩
          exact hwrite _ _ _ _ _ (fun i hi => hknown i (hbatch i (hpart hi))) hwritten
        exact kept_along hpart (front.write _ _ _ _ _ hcall) ht
      · rintro rest rfl i hi
        exact hbatch i (front.rest _ _ _ _ _ hcall hi)
      · rw [front.now _ _ _ hnow]
        exact ht
      · rw [front.pause _ _ _ _ hpause]
        exact ht
    exact hkeeping.publish run hs

theorem all_keep
    (hwrite : ∀ table batch s answer s', (∀ i ∈ batch, i.MadeOf published) →
      Ends (base.batchWrite table batch) s answer s' → holds s → holds s')
    (h : Relation.ReflTransGen (Step base published) s s') (hs : holds s) : holds s' :=
  kept_along (fun _ _ step => step.keeps holds hwrite) h hs

end Step

/-- A store's state behind a schedule: for each of the next writes a condition on the items that it keeps off. -/
structure Throttled (σ : Type) where
  base : σ
  schedule : List (Item → Bool)

namespace Throttled

def refuses (t : Throttled σ) : Item → Bool := t.schedule.headD fun _ => false

/-- Writes what the schedule lets through and hands back the rest. Behind its end it lets everything through. -/
def store (base : CatalogStore (StateM σ)) : CatalogStore (StateM (Throttled σ)) where
  name := "throttled " ++ base.name
  batchWrite table batch := ExceptT.mk fun t =>
    let (answer, s) := Id.run ((base.batchWrite table (batch.filter (!t.refuses ·))).run.run t.base)
    (answer.map (· ++ batch.filter t.refuses), ⟨s, t.schedule.tail⟩)

instance : Clock (StateM (Throttled σ)) where
  now := pure (timeAt (⟨[], [], []⟩ : Shelf))
  pause _ := pure ()

variable {base : CatalogStore (StateM σ)}

theorem ends_batchWrite {table : String} {batch : List Item} {t t' : Throttled σ} {answer : Except Failure (List Item)}
    (h : Ends ((store base).batchWrite table batch) t answer t') :
    ∃ r s, Ends (base.batchWrite table (batch.filter (!t.refuses ·))) t.base r s ∧
      answer = r.map (· ++ batch.filter t.refuses) ∧ t' = ⟨s, t.schedule.tail⟩ := by
  obtain ⟨rfl, rfl⟩ := Prod.mk.inj h
  exact ⟨_, _, rfl, rfl, rfl⟩

theorem fronts (hrest : ∀ table batch s rest s', Ends (base.batchWrite table batch) s (.ok rest) s' → rest ⊆ batch) :
    Fronts Throttled.base base (store base) where
  write table batch t answer t' h := by
    obtain ⟨r, s, hwritten, -, rfl⟩ := ends_batchWrite h
    exact .single ⟨_, List.filter_subset_self _, r, hwritten⟩
  rest table batch t rest t' h := by
    obtain ⟨r, s, hwritten, hanswer, -⟩ := ends_batchWrite h
    cases r with
    | error f => cases hanswer
    | ok left =>
      obtain rfl := Except.ok.inj hanswer
      have hleft := List.Subset.trans (hrest _ _ _ _ _ hwritten) (List.filter_subset_self _)
      exact List.append_subset.2 ⟨hleft, List.filter_subset_self _⟩
  now t time t' h := by
    obtain ⟨-, rfl⟩ := Prod.mk.inj h
    rfl
  pause d t u t' h := by
    obtain ⟨-, rfl⟩ := Prod.mk.inj h
    rfl

end Throttled

end CardIndex
