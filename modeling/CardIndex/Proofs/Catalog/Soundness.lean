import CardIndex.Proofs.Catalog.Atomicity
import CardIndex.Proofs.Catalog.Histories

namespace CardIndex

open Attempt FileSystem Json Json.Tree

/-- The card that the fields of an item make up, its hash and its time apart. -/
def Item.card (i : Item) : Card where
  id := i.id
  slug := i.slug
  name := i.name
  kind := i.kind
  rarity := i.rarity
  setName := i.setName
  colors := i.colors
  cost := ⟨i.energy, i.powerSymbols, i.costRaw⟩
  might := i.might
  tags := i.tags
  effect := i.effect
  flavor := i.flavor
  keywords := i.keywords
  activation := ⟨i.timing, i.triggers, i.actions, i.requiresTarget, i.reactionWindows, i.stateful⟩
  rules := i.rules
  assets := ⟨i.imageRemote, i.imageLocalPath⟩
  pricing := ⟨i.price, i.foilPrice, i.currency⟩
  references := ⟨i.marketUrl, i.source⟩

/-- No field of a card is lost where it is made flat. -/
theorem Card.card_toItem (c : Card) (now : Timestamp) : (c.toItem now).card = c := rfl

variable {cards : List Card}

namespace Item.MadeOf

variable {i : Item}

theorem card_mem (h : i.MadeOf cards) : i.card ∈ cards := by
  obtain ⟨c, hc, now, rfl⟩ := h
  rw [Card.card_toItem]
  exact hc

theorem contentHash (h : i.MadeOf cards) : i.contentHash = i.card.contentHash := by
  obtain ⟨c, -, now, rfl⟩ := h
  rw [Card.card_toItem]
  rfl

theorem storable (h : i.MadeOf cards) (hcards : ∀ c ∈ cards, c.Storable) : i.Storable := by
  obtain ⟨c, hc, now, rfl⟩ := h
  exact (hcards c hc).toItem now

end Item.MadeOf

namespace Table

/-- Each entry is under the slug of its item, whose hash is that of its card, and that card is one of the given. -/
def Sound (cards : List Card) (table : Table) : Prop :=
  ∀ e ∈ table, e.1 = e.2.slug ∧ e.2.contentHash = e.2.card.contentHash ∧ e.2.card ∈ cards

theorem sound_nil : Sound cards [] := fun e he => by cases he

theorem Sound.putAll {table : Table} (h : table.Sound cards) {items : List Item}
    (hitems : ∀ i ∈ items, i.MadeOf cards) : (table.putAll items).Sound cards := by
  induction items generalizing table with
  | nil => exact h
  | cons i items ih =>
    rw [List.forall_mem_cons] at hitems
    refine ih (fun e he => ?_) hitems.2
    rcases Entries.mem_put i.slug i table e he with rfl | he
    · exact ⟨rfl, hitems.1.contentHash, hitems.1.card_mem⟩
    · exact h e he

/-- A sound table of which the text can be read again. -/
structure Kept (cards : List Card) (table : Table) : Prop where
  ordered : Entries.Ordered table
  storable : table.Storable
  sound : table.Sound cards

theorem kept_nil : Kept cards [] := ⟨Entries.ordered_nil, fun e he => (by cases he), sound_nil⟩

theorem Kept.putAll {table : Table} (h : table.Kept cards) {items : List Item} (hcards : ∀ c ∈ cards, c.Storable)
    (hitems : ∀ i ∈ items, i.MadeOf cards) : (table.putAll items).Kept cards where
  ordered := ordered_putAll table items h.ordered
  storable := storable_putAll table items h.storable fun i hi => (hitems i hi).storable hcards
  sound := h.sound.putAll hitems

end Table

/-- What is written into one table in memory keeps each table sound. -/
theorem Tables.sound_write {tables : Tables} {name : String} (h : (tables.table name).Sound cards) (other : String)
    {items : List Item} (hitems : ∀ i ∈ items, i.MadeOf cards) : ((tables.write other items).table name).Sound cards := by
  rw [table_write]
  split
  · rename_i hname
    rw [← hname]
    exact h.putAll hitems
  · exact h

/-- If there is a file at a place, it is the text of a sound table. -/
def FileSystem.SoundAt (cards : List Card) (fs : FileSystem) (place : Place) : Prop :=
  ∀ content, fs.find? place = some (.file content) →
    ∃ table : Table, content = table.toTree.prettyText.toUTF8 ∧ table.Kept cards

theorem FileSystem.SoundAt.spares {fs fs' : FileSystem} {place : Place} (h : fs.SoundAt cards place)
    (hspares : Spares fs fs' place) : fs'.SoundAt cards place :=
  fun content hfile => h content ((hspares.file content).1 hfile)

namespace FileStore

variable {s : FileStore} {name : String} {items : List Item} {fs fs' : FileSystem}

/-- From a file with a sound table no other is loaded, nor can the file be found malformed. -/
theorem load_of_soundAt {answer : Except Failure Table}
    (hsound : fs.SoundAt cards (fs.named (s.tablePath name)))
    (h : (s.load name : Attempt (StateM FileSystem) Table).Ends fs answer fs') :
    fs' = fs ∧ ((∃ table, answer = .ok table ∧ table.Kept cards) ∨ ∃ e, answer = .error (.io e)) := by
  obtain ⟨hanswer, rfl⟩ := (ends_load ..).1 h
  refine ⟨rfl, ?_⟩
  cases hread : fs'.read (s.tablePath name) with
  | ok content =>
    obtain ⟨-, -, hfile⟩ := (fs'.read_ok _ content).1 hread
    obtain ⟨table, rfl, hkept⟩ := hsound content hfile
    have hload := load_of_prettyText hread (table.ofTree?_toTree hkept.ordered hkept.storable)
    exact .inl ⟨table, congrArg Prod.fst (h.symm.trans hload), hkept⟩
  | error e =>
    rw [hanswer, hread]
    cases e with
    | notFound => exact .inl ⟨[], rfl, Table.kept_nil⟩
    | _ => exact .inr ⟨_, rfl⟩

/-- No write moves the place that a path names. -/
theorem named_write {r : Except Failure (List Item)}
    (h : (s.write name items : Attempt (StateM FileSystem) (List Item)).Ends fs r fs') (path : Path) :
    fs'.named path = fs.named path := by
  have hlonger {place longer : Place} (hlength : place.length < longer.length) : longer ≠ place := by
    rintro rfl
    exact Nat.lt_irrefl _ hlength
  -- some place that the write has nothing to do with
  let elsewhere : Place := "" :: (fs.named (s.tablePath name) ++ fs.named (s.draftPath name))
  have hlength : elsewhere.length =
      (fs.named (s.tablePath name)).length + (fs.named (s.draftPath name)).length + 1 := by
    simp [elsewhere]
  have htable : elsewhere ≠ fs.named (s.tablePath name) := hlonger (by omega)
  have hdraft : elsewhere ≠ fs.named (s.draftPath name) := hlonger (by omega)
  exact (spares_write h elsewhere (.inl htable) fun _ => hdraft).named path

/-- Whatever comes of a write into whatever table, what the file of a table holds stays sound. -/
theorem soundAt_write {r : Except Failure (List Item)} (hcards : ∀ c ∈ cards, c.Storable)
    (hitems : ∀ i ∈ items, i.MadeOf cards) {other : String}
    (h : (s.write other items : Attempt (StateM FileSystem) (List Item)).Ends fs r fs')
    (hsound : fs.SoundAt cards (fs.named (s.tablePath name))) :
    fs'.SoundAt cards (fs'.named (s.tablePath name)) := by
  have hdraft : (s.draftPath other).asksForDirectory = false →
      fs.named (s.tablePath name) ≠ fs.named (s.draftPath other) := fun hasks =>
    (s.named_draftPath_ne fs other name hasks).symm
  rw [named_write h]
  cases r with
  | error e => exact hsound.spares (spares_write h _ (.inr ⟨e, rfl⟩) hdraft)
  | ok rest =>
    -- two names may lead to one file, which the write into the one then replaces for the other
    by_cases hplace : fs.named (s.tablePath name) = fs.named (s.tablePath other)
    · rw [hplace] at hsound ⊢
      obtain ⟨-, loaded, hload, hread⟩ := write_takes h
      obtain ⟨-, ⟨table, htable, hkept⟩ | ⟨e, he⟩⟩ := load_of_soundAt hsound hload
      · obtain rfl := Except.ok.inj htable
        obtain ⟨-, -, hfile⟩ := (fs'.read_ok _ _).1 hread
        rw [named_write h] at hfile
        intro content hcontent
        rw [hfile] at hcontent
        obtain rfl := Node.file.inj (Option.some.inj hcontent)
        exact ⟨_, rfl, hkept.putAll hcards hitems⟩
      · cases he
    · exact hsound.spares (spares_write h _ (.inl hplace) hdraft)

theorem rest_subset (s : FileStore) (table : String) (batch : List Item) (fs : FileSystem) (rest : List Item)
    (fs' : FileSystem) (h : Ends (s.store.batchWrite table batch) fs (.ok rest) fs') : rest ⊆ batch := by
  obtain ⟨rfl, -⟩ := write_takes h
  exact List.nil_subset _

/-- The store that the program publishes to is one in front of its files. -/
theorem fronts_world (s : FileStore) : Fronts World.files s.store (s.store : CatalogStore (StateM World)) where
  write table batch w answer w' h :=
    .single ⟨batch, List.Subset.refl _, answer, (s.onFiles_write table batch).ends h⟩
  rest table batch w rest w' h := s.rest_subset table batch _ rest _ ((s.onFiles_write table batch).ends h)
  now w time w' h := by
    obtain ⟨-, rfl⟩ := Prod.mk.inj h
    rfl
  pause d w u w' h := by
    obtain ⟨-, rfl⟩ := Prod.mk.inj h
    rfl

end FileStore

theorem Tables.rest_subset (table : String) (batch : List Item) (tables : Tables) (rest : List Item) (tables' : Tables)
    (h : Ends (Tables.store.batchWrite table batch) tables (.ok rest) tables') : rest ⊆ batch := by
  obtain ⟨hrest, -⟩ := Prod.mk.inj h
  obtain rfl := Except.ok.inj hrest
  exact List.nil_subset _

/-- Whatever happens to a store, a table that was empty at first has only entries under their own slugs, each with the
hash of the card that its other fields make up, one of those that were published. Where tables are files, the floats
of these cards are assumed to be read back. Then a table's file is the text of such a table, and such a table is loaded
from it; it may be out of reach, but it is not malformed. -/
theorem publish_keeps_tables_sound (published : List Card) :
    (∀ (tables tables' : Tables) (name : String), tables.table name = [] →
      Relation.ReflTransGen (Step Tables.store published) tables tables' →
      (tables'.table name).Sound published) ∧
    ∀ (s : FileStore) (fs fs' : FileSystem) (name : String), (∀ c ∈ published, c.Storable) →
      (∀ content, fs.find? (fs.named (s.tablePath name)) ≠ some (.file content)) →
      Relation.ReflTransGen (Step s.store published) fs fs' →
      (∀ content, fs'.find? (fs'.named (s.tablePath name)) = some (.file content) →
        ∃ table : Table, content = table.toTree.prettyText.toUTF8 ∧ table.Sound published) ∧
      ∀ answer, (s.load name : Attempt (StateM FileSystem) Table).Ends fs' answer fs' →
        (∃ table, answer = .ok table ∧ table.Sound published) ∨ ∃ e, answer = .error (.io e) := by
  constructor
  · intro tables tables' name hempty hsteps
    have hstart : (tables.table name).Sound published := hempty ▸ Table.sound_nil
    refine Step.all_keep (fun t => (t.table name).Sound published)
      (fun other batch t answer t' hbatch hwrite ht => ?_) hsteps hstart
    obtain ⟨-, rfl⟩ := Prod.mk.inj hwrite
    exact Tables.sound_write ht other hbatch
  · intro s fs fs' name hstorable hempty hsteps
    have hstart : fs.SoundAt published (fs.named (s.tablePath name)) := fun content hfile =>
      absurd hfile (hempty content)
    have hsound : fs'.SoundAt published (fs'.named (s.tablePath name)) :=
      Step.all_keep (fun t => t.SoundAt published (t.named (s.tablePath name)))
        (fun _ _ _ _ _ hbatch hwrite => FileStore.soundAt_write hstorable hbatch hwrite) hsteps hstart
    refine ⟨fun content hfile => ?_, fun answer hload => ?_⟩
    · obtain ⟨table, hcontent, hkept⟩ := hsound content hfile
      exact ⟨table, hcontent, hkept.sound⟩
    · obtain ⟨-, ⟨table, hanswer, hkept⟩ | hio⟩ := FileStore.load_of_soundAt hsound hload
      · exact .inl ⟨table, hanswer, hkept.sound⟩
      · exact .inr hio

/-- Two cards are published to a store that keeps off one of them, so that the run fails, and then again. To files they
are published with both kept off at first; before the program publishes them the table is written again. -/
theorem publish_keeps_tables_sound_of_failed_runs :
    let cards := [Card.plain "a" "First", .plain "b" "Other"]
    let now := timeAt (⟨[], [], []⟩ : Shelf)
    let table : Table := [("a", (Card.plain "a" "First").toItem now), ("b", (Card.plain "b" "Other").toItem now)]
    let s : FileStore := ⟨"store", "local"⟩
    let fs : FileSystem := ⟨[(["store"], .directory)], []⟩
    (∃ tables : Tables, Relation.ReflTransGen (Step Tables.store cards) [] tables ∧ tables.table "cards" = table ∧
      (tables.table "cards").Sound cards) ∧
    ∃ fs', Relation.ReflTransGen (Step s.store cards) fs fs' ∧
      (s.load "cards" : Attempt (StateM FileSystem) Table).Ends fs' (.ok table) fs' ∧ table.Sound cards := by
  intro cards now table s fs
  have hchunks {α : Type} (f : Card → α) : chunksOf 25 (cards.map f) =
      [[f (.plain "a" "First"), f (.plain "b" "Other")]] := by
    simp [cards, chunksOf_cons]
  have hall := List.Subset.refl cards
  let hasty {m : Type → Type} (store : CatalogStore m) : Publisher m := ⟨store, "cards", 25, ⟨0, .ofMilliseconds 1⟩⟩
  constructor
  · let p : Publisher (StateM (Throttled Tables)) := hasty (Throttled.store Tables.store)
    obtain ⟨t, t', hfailed, hrun, htable⟩ : ∃ t t' : Throttled Tables,
        (p.publish cards).Ends ⟨[], [(·.slug = "b")]⟩ (.error (.unprocessed 1 1)) t ∧
        (p.publish cards).Ends t (.ok ⟨2, 1, 0, 2⟩) t' ∧ t'.base.table "cards" = table := by
      unfold Publisher.publish
      simp only [p, hasty, hchunks]
      exact ⟨_, _, rfl, rfl, rfl⟩
    have hfronts := Throttled.fronts Tables.rest_subset
    have hfirst : Step Tables.store cards [] t.base := .publish hfronts hall hfailed
    have hsteps := (Relation.ReflTransGen.single hfirst).tail (.publish hfronts hall hrun)
    exact ⟨t'.base, hsteps, htable, (publish_keeps_tables_sound cards).1 [] _ "cards" rfl hsteps⟩
  · let world (files : FileSystem) : World := ⟨files, [], [], fun _ => .failed, [], now, []⟩
    let p : Publisher (StateM (Throttled FileSystem)) := hasty (Throttled.store s.store)
    let q : Publisher (StateM World) := .standard s.store "cards"
    obtain ⟨t, fs', w, hfailed, hrewrite, hempty, hrun⟩ : ∃ (t : Throttled FileSystem) (fs' : FileSystem) (w : World),
        (p.publish cards).Ends ⟨fs, [fun _ => true]⟩ (.error (.unprocessed 1 2)) t ∧
        (s.store.batchWrite "cards" []).Ends t.base (.ok []) fs' ∧
        (∃ text, (fs'.read (s.tablePath "cards")).bind decode = .ok text ∧
          (Tree.ofText? text).bind Table.ofTree? = some []) ∧
        (q.publish cards).Ends (world fs') (.ok ⟨2, 1, 0, 2⟩) w := by
      unfold Publisher.publish
      simp only [p, q, hasty, Publisher.standard, Publisher.standardChunkSize, hchunks]
      exact ⟨_, _, _, ends_of_fst (by decide +kernel), ends_of_fst (by decide +kernel), ⟨"{}", by decide +kernel,
        by decide +kernel⟩, ends_of_fst (by decide +kernel)⟩
    have hfirst : Step s.store cards fs t.base := .publish (Throttled.fronts s.rest_subset) hall hfailed
    have hlast : Step s.store cards fs' w.files := .publish s.fronts_world hall hrun
    have hsteps := ((Relation.ReflTransGen.single hfirst).tail (.rewrite hrewrite)).tail hlast
    have hstorable : ∀ c ∈ cards, c.Storable := by
      have hplain (slug name : String) : (Card.plain slug name).Storable :=
        ⟨fun n hn => (by cases hn), fun x hx => (by cases hx)⟩
      simp [cards, hplain]
    have hnone : ∀ content, fs.find? (fs.named (s.tablePath "cards")) ≠ some (.file content) := by
      have hplace : fs.find? (fs.named (s.tablePath "cards")) = none := by decide +kernel
      simp [hplace]
    obtain ⟨-, hholds, -⟩ := (s.takesAll "cards" [] now).publish cards now (world fs') w _ rfl
      ⟨rfl, .inl hempty, Entries.ordered_nil, fun e he => (by cases he)⟩ (fun c hc => (hstorable c hc).toItem now) hrun
    have htable : Table.putAll [] (cards.map (·.toItem now)) = table := by
      have hbehind : ¬ "b" < "a" := by decide
      simp [cards, table, Table.putAll, Entries.put, Card.toItem, Card.plain, hbehind]
    rw [htable] at hholds
    obtain ⟨text, htext, hread⟩ | ⟨-, hnil⟩ := hholds
    · have hload : (s.load "cards" : Attempt (StateM FileSystem) Table).Ends w.files (.ok table) w.files := by
        rw [FileStore.ends_load, htext, FileStore.loadedFrom, hread]
        exact ⟨rfl, rfl⟩
      refine ⟨w.files, hsteps, hload, ?_⟩
      obtain ⟨found, hfound, hsound⟩ | ⟨e, he⟩ :=
        ((publish_keeps_tables_sound cards).2 s fs w.files "cards" hstorable hnone hsteps).2 _ hload
      · obtain rfl := Except.ok.inj hfound
        exact hsound
      · cases he
    · exact absurd hnil (List.cons_ne_nil _ _)

end CardIndex
