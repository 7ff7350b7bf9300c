import CardIndex.Proofs.Catalog.Retries

namespace CardIndex

open Attempt

variable {σ : Type}

/-- What is left unwritten of a call's batch, if the store writes all that it does not hand back, and nothing where
it fails. -/
def Call.leftOver (c : Call) : List Item :=
  match c.answer with
  | .ok rest => rest
  | .error _ => c.batch

theorem Call.leftOver_of_ok {c : Call} {rest : List Item} (h : c.answer = .ok rest) : c.leftOver = rest := by
  unfold leftOver
  rw [h]

/-- Of a call's batch, what was taken and what is left over make up the whole. -/
def Call.Accepted (c : Call) (taken : List Item) : Prop := (taken ++ c.leftOver).Perm c.batch

/-- A store that writes exactly what it does not hand back, in any order, and nothing where it fails. -/
structure Exact [Clock (StateM σ)] (holdings : σ → Holdings) (store : CatalogStore (StateM σ)) : Prop where
  answered : ∀ table batch s rest s', Ends (store.batchWrite table batch) s (.ok rest) s' →
    ∃ taken, (taken ++ rest).Perm batch ∧ holdings s' = (holdings s).write table taken
  failed : ∀ table batch s f s', Ends (store.batchWrite table batch) s (.error f) s' → holdings s' = holdings s
  now : ∀ s t s', Id.run ((Clock.now : StateM σ Timestamp).run s) = (t, s') → holdings s' = holdings s
  pause : ∀ d s u s', Id.run ((Clock.pause d : StateM σ Unit).run s) = (u, s') → holdings s' = holdings s

/-- The calls about some items, what they have written and what they have left. -/
structure Books (holdings : σ → Holdings) (table : String) (items : List Item) (s s' : σ) (calls : List Call)
    (taken rest : List Item) : Prop where
  accepted : ∃ takens, List.Forall₂ Call.Accepted calls takens ∧ takens.flatten = taken
  holdings : holdings s' = (holdings s).write table taken
  split : (taken ++ rest).Perm items
  within : ∀ c ∈ calls, c.batch ⊆ items

namespace Books

variable {holdings : σ → Holdings} {table : String} {s t s' : σ} {calls others : List Call}
  {items more taken taken' rest : List Item}

theorem nil (s : σ) : Books holdings table [] s s [] [] [] where
  accepted := ⟨[], .nil, rfl⟩
  holdings := (Holdings.write_nil _ _).symm
  split := .nil
  within c hc := by cases hc

/-- What the first calls left over is taken up by the others. -/
theorem again (h : Books holdings table items s t calls taken more)
    (k : Books holdings table more t s' others taken' rest) :
    Books holdings table items s s' (calls ++ others) (taken ++ taken') rest where
  accepted := by
    obtain ⟨takens, haccepted, rfl⟩ := h.accepted
    obtain ⟨takens', haccepted', rfl⟩ := k.accepted
    exact ⟨takens ++ takens', List.rel_append haccepted haccepted', List.flatten_append⟩
  holdings := by rw [k.holdings, h.holdings, Holdings.write_append]
  split := by
    rw [List.append_assoc]
    exact (k.split.append_left taken).trans h.split
  within c hc := by
    rcases List.mem_append.1 hc with hc | hc
    · exact h.within c hc
    · intro i hi
      exact h.split.subset (List.mem_append_right _ (k.within c hc hi))

/-- Items of which nothing was sent are left over. -/
theorem unsent (h : Books holdings table items s s' calls taken rest) (more : List Item) :
    Books holdings table (items ++ more) s s' calls taken (rest ++ more) where
  accepted := h.accepted
  holdings := h.holdings
  split := by
    rw [← List.append_assoc]
    exact h.split.append_right more
  within c hc := fun i hi => List.mem_append_left _ (h.within c hc hi)

/-- Chunks that are all written, one that may not be, and others that were not sent. -/
theorem around {before : List (List Item)} {chunk : List Item} (after : List (List Item))
    (h : Books holdings table before.flatten s t calls taken [])
    (k : Books holdings table chunk t s' others taken' rest) :
    Books holdings table (before ++ chunk :: after).flatten s s' (calls ++ others) (taken ++ taken')
      (rest ++ after.flatten) := by
  have hall := ((h.unsent chunk).again k).unsent after.flatten
  have hitems : before.flatten ++ chunk ++ after.flatten = (before ++ chunk :: after).flatten := by simp
  rw [hitems] at hall
  exact hall

theorem of_same (hsame : holdings t = holdings s) (h : Books holdings table items t s' calls taken rest) :
    Books holdings table items s s' calls taken rest where
  accepted := h.accepted
  holdings := by rw [h.holdings, hsame]
  split := h.split
  within := h.within

/-- Nothing is accepted by a last call that fails. -/
theorem of_failed {c : Call} {f : Failure} (h : Books holdings table items s s' (calls ++ [c]) taken rest)
    (hf : c.answer = .error f) : ∃ takens, List.Forall₂ Call.Accepted calls takens ∧ takens.flatten = taken := by
  obtain ⟨takens, haccepted, rfl⟩ := h.accepted
  have hfirst := List.forall₂_take calls.length haccepted
  have hlast := List.forall₂_drop calls.length haccepted
  rw [List.take_left] at hfirst
  rw [List.drop_left] at hlast
  refine ⟨takens.take calls.length, hfirst, ?_⟩
  have hnone : (takens.drop calls.length).flatten = [] := by
    generalize takens.drop calls.length = others at hlast
    obtain _ | ⟨hc, hnil⟩ := hlast
    cases hnil
    have hlength := hc.length_eq
    have hleft : c.leftOver = c.batch := by
      unfold Call.leftOver
      rw [hf]
    rw [hleft, List.length_append] at hlength
    rw [List.flatten_singleton]
    exact List.eq_nil_of_length_eq_zero (by omega)
  conv_rhs => rw [← List.take_append_drop calls.length takens, List.flatten_append, hnone, List.append_nil]

/-- Without two items of one slug, the table holds those that were taken, and is as before for those that are left. -/
theorem table_of_distinct (h : Books holdings table items s s' calls taken rest)
    (distinct : (items.map Item.slug).Nodup) :
    (∀ i ∈ taken, holdings s' table i.slug = some i) ∧
      ∀ i ∈ rest, holdings s' table i.slug = holdings s table i.slug := by
  have hnodup := (h.split.map Item.slug).nodup_iff.2 distinct
  rw [List.map_append] at hnodup
  obtain ⟨htaken, -, hdisjoint⟩ := List.nodup_append.1 hnodup
  rw [h.holdings]
  constructor
  · intro i hi
    exact Holdings.write_of_mem _ _ _ htaken i hi
  · intro i hi
    refine Holdings.write_of_forall_ne _ _ _ _ fun j hj => ?_
    exact hdisjoint _ (List.mem_map_of_mem hj) _ (List.mem_map_of_mem hi)

end Books

/-- How a run ends that gives up at a chunk. The last calls, as many as the policy allows, are about that chunk, and
those before them about the chunks before it. What is left of the chunk is what the last call handed back. -/
structure GaveUp (p : Publisher (StateM σ)) (held held' : Holdings) (calls : List Call) (before : List (List Item))
    (chunk : List Item) (after : List (List Item)) (rest : List Item) : Prop where
  sent : ∃ earlier attempts, calls = earlier ++ attempts ∧ (∀ c ∈ earlier, c.batch ⊆ before.flatten) ∧
    attempts.length = p.policy.maxAttempts.toNat + 1 ∧ ∀ c ∈ attempts, c.batch ≠ [] ∧ c.batch ⊆ chunk
  returned : ∃ c ∈ calls.getLast?, c.answer = .ok rest
  written : ∃ taken, (taken ++ rest).Perm chunk ∧ held' = held.write p.table (before.flatten ++ taken) ∧
    ∀ i ∈ before.flatten ++ taken, held' p.table i.slug = some i
  kept : ∀ i ∈ rest ++ after.flatten, held' p.table i.slug = held p.table i.slug
  unsent : ∀ c ∈ calls, ∀ i ∈ after.flatten, i ∉ c.batch

theorem Books.gaveUp {holdings : σ → Holdings} {p : Publisher (StateM σ)} {s t s' : σ} {before after : List (List Item)}
    {chunk takenBefore taken rest : List Item} {earlier attempts : List Call}
    (hbefore : Books holdings p.table before.flatten s t earlier takenBefore [])
    (hchunk : Books holdings p.table chunk t s' attempts taken rest)
    (distinct : ((before ++ chunk :: after).flatten.map Item.slug).Nodup)
    (hlength : attempts.length = p.policy.maxAttempts.toNat + 1) (hsent : ∀ c ∈ attempts, c.batch ≠ [])
    (hlast : ∃ c ∈ attempts.getLast?, c.answer = .ok rest) :
    GaveUp p (holdings s) (holdings s') (earlier ++ attempts) before chunk after rest := by
  have hall := Books.around after hbefore hchunk
  have htook : takenBefore.Perm before.flatten := by simpa using hbefore.split
  have hnodup := (hall.split.map Item.slug).nodup_iff.2 distinct
  rw [List.map_append, List.nodup_append] at hnodup
  obtain ⟨hwritten, hkept⟩ := hall.table_of_distinct distinct
  refine ⟨⟨earlier, attempts, rfl, hbefore.within, hlength, ?_⟩, ?_, ⟨taken, hchunk.split, ?_, ?_⟩, hkept, ?_⟩
  · intro c hc
    exact ⟨hsent c hc, hchunk.within c hc⟩
  · obtain ⟨c, hc, hanswer⟩ := hlast
    refine ⟨c, ?_, hanswer⟩
    rw [List.getLast?_append, Option.mem_def.1 hc]
    rfl
  · rw [hall.holdings]
    apply Holdings.write_congr
    intro slug
    exact latest_of_perm _ _ (htook.append_right taken) hnodup.1 slug
  · intro i hi
    exact hwritten i ((htook.append_right taken).mem_iff.2 hi)
  · intro c hc i hi hbatch
    have hwithin : c.batch ⊆ before.flatten ++ chunk := ((hbefore.unsent chunk).again hchunk).within c hc
    have hflatten : (before ++ chunk :: after).flatten = before.flatten ++ chunk ++ after.flatten := by simp
    rw [hflatten, List.map_append, List.nodup_append] at distinct
    exact distinct.2.2 _ (List.mem_map_of_mem (hwithin hbatch)) _ (List.mem_map_of_mem hi) rfl

section

variable [Clock (StateM σ)] {p : Publisher (StateM σ)} {holdings : σ → Holdings} {number attempt : Nat}
  {pauses : List Duration} {batch : List Item} {chunks : List (List Item)} {s s' : σ} {calls : List Call}
  {parts : List (List Call)} {result : Except Failure Nat}

theorem Exact.books (exact : Exact holdings p.store) {answer : Except Failure (List Item)} (pauses : List Duration)
    (h : Ends (p.store.batchWrite p.table batch) s answer s') :
    let c : Call := ⟨pauses, p.table, batch, answer⟩
    ∃ taken, Books holdings p.table batch s s' [c] taken c.leftOver := by
  intro c
  have hcall : ∃ taken, c.Accepted taken ∧ holdings s' = (holdings s).write p.table taken := by
    cases answer with
    | ok rest => exact exact.answered _ _ _ _ _ h
    | error f =>
      refine ⟨[], .refl batch, ?_⟩
      rw [exact.failed _ _ _ _ _ h, Holdings.write_nil]
  obtain ⟨taken, haccepted, hholdings⟩ := hcall
  refine ⟨taken, ⟨[taken], .cons haccepted .nil, ?_⟩, hholdings, haccepted, ?_⟩
  · rw [List.flatten_singleton]
  · intro d hd
    rw [List.mem_singleton.1 hd]
    exact fun i hi => hi

/-- What a dialogue does not write of its batch is what its last call left over. -/
theorem Dialogue.books (exact : Exact holdings p.store)
    (h : Dialogue p number attempt pauses batch s calls result s') :
    ∃ taken, ∃ last ∈ calls.getLast?, Books holdings p.table batch s s' calls taken last.leftOver := by
  induction h with
  | @last attempt pauses batch s answer result s' call outcome =>
    obtain ⟨taken, hbooks⟩ := exact.books pauses call
    exact ⟨taken, _, rfl, hbooks⟩
  | @again attempt pauses batch s rest t delay t' calls result s' call left more wait pause others ih =>
    obtain ⟨taken, hbooks⟩ := exact.books pauses call
    obtain ⟨taken', last, hlast, hothers⟩ := ih
    refine ⟨taken ++ taken', last, ?_, hbooks.again (hothers.of_same (exact.pause _ _ _ _ pause))⟩
    rw [List.getLast?_cons, Option.mem_def.1 hlast]
    rfl

theorem Dialogue.sends_something (h : Dialogue p number attempt pauses batch s calls result s')
    (hbatch : batch ≠ []) : ∀ c ∈ calls, c.batch ≠ [] := by
  induction h with
  | last => simpa using hbatch
  | again _ left _ _ _ _ ih =>
    rw [List.forall_mem_cons]
    exact ⟨hbatch, ih left⟩

/-- A course that does not fail writes everything. -/
theorem Course.books (exact : Exact holdings p.store) (h : Course p number chunks s parts result s') (retries : Nat)
    (hresult : result = .ok retries) :
    ∃ taken, Books holdings p.table chunks.flatten s s' parts.flatten taken [] := by
  induction h generalizing retries with
  | nil => exact ⟨[], .nil _⟩
  | stop => cases hresult
  | @next _ chunk chunks _ _ _ _ _ result _ first _ ih =>
    cases result with
    | error => cases hresult
    | ok others =>
      obtain ⟨taken, last, hlast, hbooks⟩ := first.books exact
      obtain ⟨-, last', hlast', hanswer⟩ := first.of_ok
      obtain rfl := Option.mem_unique hlast hlast'
      obtain ⟨taken', hothers⟩ := ih others rfl
      rw [Call.leftOver_of_ok hanswer] at hbooks
      exact ⟨taken ++ taken', (hbooks.unsent chunks.flatten).again hothers⟩

theorem Course.gaveUp (exact : Exact holdings p.store) {k count : Nat}
    (distinct : (chunks.flatten.map Item.slug).Nodup) (hchunks : ∀ chunk ∈ chunks, chunk ≠ [])
    (h : Course p 1 chunks s parts (.error (.unprocessed k count)) s')
    (hanswers : ∀ c ∈ parts.flatten, c.answer ≠ .error (.unprocessed k count)) :
    ∃ before chunk after rest, chunks = before ++ chunk :: after ∧ before.length + 1 = k ∧ rest.length = count ∧
      GaveUp p (holdings s) (holdings s') parts.flatten before chunk after rest := by
  obtain ⟨before, chunk, after, earlier, attempts, _, t, rfl, rfl, hbefore, hattempts⟩ := h.of_error _ rfl
  obtain ⟨c, hc, hanswer | ⟨rest, hrest, hleft, hlength, hf⟩ | ⟨hf, -⟩⟩ := hattempts.of_error
  · refine absurd hanswer (hanswers c ?_)
    rw [List.flatten_append, List.flatten_singleton]
    exact List.mem_append_right _ (List.mem_of_getLast? hc)
  · obtain ⟨rfl, rfl⟩ := Failure.unprocessed.inj hf
    obtain ⟨takenBefore, hbooksBefore⟩ := hbefore.books exact _ rfl
    obtain ⟨taken, last, hlast, hbooks⟩ := hattempts.books exact
    obtain rfl := Option.mem_unique hc hlast
    rw [Call.leftOver_of_ok hrest] at hbooks
    have hsent := hattempts.sends_something (hchunks chunk (by simp))
    have hgaveUp := hbooksBefore.gaveUp hbooks distinct hlength hsent ⟨c, hc, hrest⟩
    rw [List.flatten_append, List.flatten_singleton]
    exact ⟨before, chunk, after, rest, rfl, Nat.add_comm _ _, rfl, hgaveUp⟩
  · cases hf

theorem Course.books_of_error (exact : Exact holdings p.store) {f : Failure}
    (h : Course p number chunks s parts (.error f) s') :
    ∃ taken rest, Books holdings p.table chunks.flatten s s' parts.flatten taken rest := by
  obtain ⟨before, chunk, after, earlier, calls, _, t, rfl, rfl, hbefore, hcalls⟩ := h.of_error _ rfl
  obtain ⟨takenBefore, hbooksBefore⟩ := hbefore.books exact _ rfl
  obtain ⟨taken, last, -, hbooks⟩ := hcalls.books exact
  have hall := Books.around after hbooksBefore hbooks
  have hflatten : (earlier ++ [calls]).flatten = earlier.flatten ++ calls := by simp
  rw [← hflatten] at hall
  exact ⟨_, _, hall⟩

/-- A run that does not write all of its cards has still written a prefix of them. Where it gives up at a chunk, all
chunks before it are written and nothing behind it was sent; where a call fails, the run ends with that failure, and
what the calls before it accepted is written. -/
theorem publish_commits_earlier_chunks (holdings : σ → Holdings) (p : Publisher (StateM σ))
    (exact : Exact holdings p.store) (cards : List Card) (distinct : (cards.map Card.slug).Nodup) (s s' : σ)
    (result : Except Failure PublishReport) (h : Ends (p.publish cards) s result s') :
    let chunks := chunksOf p.chunkSize (cards.map (·.toItem (timeAt s)))
    let calls := (p.record cards s).calls
    (∀ k count, result = .error (.unprocessed k count) →
      (∀ c ∈ calls, c.answer ≠ .error (.unprocessed k count)) →
      ∃ before chunk after rest, chunks = before ++ chunk :: after ∧ before.length + 1 = k ∧ rest.length = count ∧
        GaveUp p (holdings s) (holdings s') calls before chunk after rest) ∧
    ∀ c ∈ calls, ∀ f, c.answer = .error f → result = .error f ∧
      ∃ earlier takens, calls = earlier ++ [c] ∧ (∀ d ∈ earlier, ∃ rest, d.answer = .ok rest) ∧
        List.Forall₂ Call.Accepted earlier takens ∧
        holdings s' = (holdings s).write p.table takens.flatten ∧
        ∀ i ∈ takens.flatten, holdings s' p.table i.slug = some i := by
  intro chunks calls
  obtain ⟨t, parts, retries, hnow, hcourse, hrecord, rfl⟩ := p.course_of_publish cards s s' result h
  have hsame : holdings t = holdings s := exact.now _ _ _ hnow
  have hcalls : calls = parts.flatten := congrArg Recorded.calls hrecord
  have hdistinct : (chunks.flatten.map Item.slug).Nodup := by
    rw [chunksOf_flatten, List.map_map]
    exact distinct
  rw [hcalls, ← hsame]
  constructor
  · intro k count hresult hanswers
    cases retries with
    | ok => cases hresult
    | error f =>
      obtain rfl := Except.error.inj hresult
      exact hcourse.gaveUp exact hdistinct (chunksOf_ne_nil _ _) hanswers
  · intro c hc f hf
    obtain ⟨rfl, earlier, hearlier, hanswers⟩ := hcourse.of_failed_call c hc f hf
    obtain ⟨taken, rest, hbooks⟩ := hcourse.books_of_error exact
    obtain ⟨hwritten, -⟩ := hbooks.table_of_distinct hdistinct
    rw [hearlier] at hbooks
    obtain ⟨takens, haccepted, rfl⟩ := hbooks.of_failed hf
    exact ⟨rfl, earlier, takens, hearlier, hanswers, haccepted, hbooks.holdings, hwritten⟩

end

namespace Shelf

/-- A shelf that is closed behind the last of its refusals. -/
def closing : CatalogStore (StateM Shelf) where
  name := "closing shelf"
  batchWrite table batch := ExceptT.mk fun s =>
    if s.refusals = [] then (.error (.store "closed"), s) else (store.batchWrite table batch).run.run s

theorem ends_closing {table : String} {batch : List Item} {s s' : Shelf} {answer : Except Failure (List Item)}
    (h : Ends (closing.batchWrite table batch) s answer s') :
    (answer = .error (.store "closed") ∧ s' = s) ∨ Ends (store.batchWrite table batch) s answer s' := by
  have hrun : (if s.refusals = [] then (.error (.store "closed"), s) else (store.batchWrite table batch).run.run s) =
    (answer, s') := h
  split at hrun
  · obtain ⟨rfl, rfl⟩ := Prod.mk.inj hrun
    exact .inl ⟨rfl, rfl⟩
  · exact .inr hrun

theorem exact_closing : Exact (fun s : Shelf => s.tables.holdings) closing where
  answered table batch s rest s' h := by
    rcases ends_closing h with ⟨hclosed, -⟩ | htaken
    · cases hclosed
    · obtain ⟨-, taken, hsplit, hholdings⟩ := fair.write _ _ _ _ _ htaken
      exact ⟨taken, hsplit.2, hholdings⟩
  failed table batch s f s' h := by
    rcases ends_closing h with ⟨-, rfl⟩ | htaken
    · rfl
    · obtain ⟨_, -, hf⟩ := (ends_lift _ _ _ _).1 htaken
      cases hf
  now s t s' h := by
    obtain ⟨-, rfl⟩ := Prod.mk.inj h
    rfl
  pause d s u s' h := by
    obtain ⟨-, rfl⟩ := Prod.mk.inj h
    rfl

end Shelf

/-- Five cards in chunks of two. On the first shelf the run gives up at the second chunk, of which one item is
refused whenever it is sent; the second shelf is closed before the third call. -/
theorem publish_commits_earlier_chunks_of_shelves :
    let cards := [Card.plain "a" "A", .plain "b" "B", .plain "c" "C", .plain "d" "D", .plain "e" "E"]
    let p : Publisher (StateM Shelf) := ⟨Shelf.closing, "cards", 2, ⟨1, .ofMilliseconds 500⟩⟩
    let refusing : Shelf := ⟨[], [], [fun _ => false, (·.slug = "c"), (·.slug = "c"), fun _ => false]⟩
    let closed : Shelf := ⟨[], [], [fun _ => false, (·.slug = "c")]⟩
    let chunks := chunksOf 2 (cards.map (·.toItem (timeAt refusing)))
    (cards.map Card.slug).Nodup ∧
      (∃ s' before chunk after rest, (p.publish cards).Ends refusing (.error (.unprocessed 2 1)) s' ∧
        chunks = before ++ chunk :: after ∧ before.length = 1 ∧ rest.length = 1 ∧
        GaveUp p refusing.tables.holdings s'.tables.holdings (p.record cards refusing).calls before chunk after
          rest) ∧
      ∃ s' earlier c takens, (p.publish cards).Ends closed (.error (.store "closed")) s' ∧
        (p.record cards closed).calls = earlier ++ [c] ∧ earlier.length = 2 ∧
        List.Forall₂ Call.Accepted earlier takens ∧
        s'.tables.holdings = closed.tables.holdings.write "cards" takens.flatten := by
  intro cards p refusing closed chunks
  have hchunks {α : Type} (f : Card → α) : chunksOf 2 (cards.map f) =
      [[f (.plain "a" "A"), f (.plain "b" "B")], [f (.plain "c" "C"), f (.plain "d" "D")], [f (.plain "e" "E")]] := by
    simp [cards, chunksOf_cons]
  have hdistinct : (cards.map Card.slug).Nodup := by simp [cards, Card.plain]
  have hgaveUp : (Id.run ((p.publish cards).run.run refusing)).1 = .error (.unprocessed 2 1) := by
    unfold Publisher.publish
    simp only [p, hchunks]
    rfl
  have hclosed : (Id.run ((p.publish cards).run.run closed)).1 = .error (.store "closed") := by
    unfold Publisher.publish
    simp only [p, hchunks]
    rfl
  have hanswered : ((p.record cards refusing).calls.all fun c => c.answer.toOption.isSome) = true := by
    unfold Publisher.record Publisher.publish
    simp only [p, Publisher.recorded, hchunks]
    rfl
  have hcalls : (p.record cards closed).calls.length = 3 ∧
      (p.record cards closed).calls.getLast?.map Call.answer = some (.error (.store "closed")) := by
    unfold Publisher.record Publisher.publish
    simp only [p, Publisher.recorded, hchunks]
    exact ⟨rfl, rfl⟩
  have hanswers : ∀ c ∈ (p.record cards refusing).calls, c.answer ≠ .error (.unprocessed 2 1) := by
    intro c hc hanswer
    have hsome := List.all_eq_true.1 hanswered c hc
    rw [hanswer] at hsome
    cases hsome
  obtain ⟨hlength, hlast⟩ := hcalls
  obtain ⟨c, hc, hanswer⟩ := Option.map_eq_some_iff.1 hlast
  obtain ⟨s', h⟩ : ∃ s', (p.publish cards).Ends refusing (.error (.unprocessed 2 1)) s' := ⟨_, Prod.ext hgaveUp rfl⟩
  obtain ⟨t', k⟩ : ∃ t', (p.publish cards).Ends closed (.error (.store "closed")) t' := ⟨_, Prod.ext hclosed rfl⟩
  obtain ⟨before, chunk, after, rest, hchunk, hnumber, hcount, hbooks⟩ :=
    (publish_commits_earlier_chunks _ p Shelf.exact_closing cards hdistinct refusing s' _ h).1 2 1 rfl hanswers
  obtain ⟨-, earlier, takens, hearlier, -, haccepted, hwritten, -⟩ :=
    (publish_commits_earlier_chunks _ p Shelf.exact_closing cards hdistinct closed t' _ k).2 c
      (List.mem_of_getLast? hc) _ hanswer
  rw [hearlier, List.length_append] at hlength
  exact ⟨hdistinct, ⟨s', before, chunk, after, rest, h, hchunk, Nat.succ.inj hnumber, hcount, hbooks⟩,
    t', earlier, c, takens, k, hearlier, Nat.succ.inj hlength, haccepted, hwritten⟩

end CardIndex
