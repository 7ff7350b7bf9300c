import CardIndex.Catalog.Publishing
import CardIndex.Proofs.Catalog.Chunks
import CardIndex.Proofs.Catalog.Codec
import CardIndex.Proofs.Disk.Correspondence
import CardIndex.Proofs.World
import Mathlib.Data.List.Forall2

namespace CardIndex

open Json Json.Tree

namespace Item

/-- Only the numbers of an item can be read as others than they were, or not at all. -/
theorem ofTree?_reread (i : Item) : ofTree? i.toTree.reread = (do
    let energy ← (optional natural i.energy).reread.optional? natural?
    let might ← (optional binary64 i.might).reread.optional? binary64?
    let price ← (optional binary64 i.price).reread.optional? binary64?
    let foilPrice ← (optional binary64 i.foilPrice).reread.optional? binary64?
    some { i with energy, might, price, foilPrice }) := by
  rw [ofTree?, toTree, bind_fields?_reread]
  · simp [Fields.required_cons, Fields.nullable_cons]
  · rfl
  · decide

/-- The item as if it had been indexed at that time. -/
def stamped (t : Timestamp) (i : Item) : Item := { i with lastIndexedAt := t }

theorem ofTree?_stamped (t : Timestamp) (i : Item) :
    ofTree? (i.stamped t).toTree.reread = (ofTree? i.toTree.reread).map (stamped t) := by
  rw [ofTree?_reread, ofTree?_reread]
  simp [stamped, Function.comp_def]

end Item

/-- The items are the same, but for their times. -/
def SameButTimes (items items' : List Item) : Prop := ∃ t, items.map (Item.stamped t) = items'.map (Item.stamped t)

namespace Table

def stamped (t : Timestamp) (table : Table) : Table := table.map fun (slug, item) => (slug, item.stamped t)

theorem stamped_put (t : Timestamp) (slug : String) (item : Item) (table : Table) :
    stamped t (Entries.put slug item table) = Entries.put slug (item.stamped t) (table.stamped t) := by
  induction table with
  | nil => rfl
  | cons e table ih =>
    obtain ⟨other, old⟩ := e
    simp only [stamped, List.map_cons, Entries.put] at ih ⊢
    split
    · rfl
    · split
      · rfl
      · rw [List.map_cons, ih]

theorem stamped_putAll (t : Timestamp) (table : Table) (items : List Item) :
    (table.putAll items).stamped t = (table.stamped t).putAll (items.map (Item.stamped t)) := by
  induction items generalizing table with
  | nil => rfl
  | cons item items ih =>
    have hrest := ih (Entries.put item.slug item table)
    rw [stamped_put] at hrest
    exact hrest

theorem ofMembers?_stamped (t : Timestamp) (sofar rest : Table) :
    ofMembers? (sofar.stamped t) ((rest.stamped t).map fun (slug, item) => (some slug, item.toTree.reread)) =
      (ofMembers? sofar (rest.map fun (slug, item) => (some slug, item.toTree.reread))).map (stamped t) := by
  induction rest generalizing sofar with
  | nil => rfl
  | cons e rest ih =>
    obtain ⟨slug, item⟩ := e
    have hitem := item.ofTree?_stamped t
    simp only [stamped, List.map_cons, ofMembers?, Option.bind_eq_bind, Option.bind_some] at ih ⊢
    rw [hitem]
    cases Item.ofTree? item.toTree.reread with
    | none => rfl
    | some read =>
      have hrest := ih (Entries.put slug read sofar)
      have hput := stamped_put t slug read sofar
      rw [stamped, stamped] at hput
      rw [hput] at hrest
      exact hrest

theorem ofTree?_stamped (t : Timestamp) (table : Table) :
    ofTree? (table.stamped t).toTree.reread = (ofTree? table.toTree.reread).map (stamped t) := by
  rw [reread_toTree, reread_toTree]
  exact ofMembers?_stamped t [] table

/-- The tables are the same, but for the times of their items. -/
def SameButTimes (table table' : Table) : Prop := ∃ t, table.stamped t = table'.stamped t

theorem sameButTimes_refl (table : Table) : SameButTimes table table := by
  cases table with
  | nil => exact ⟨⟨⟨0, 1, 1, by decide, by decide, by decide⟩, 0, 0, 0, 0, by decide, by decide, by decide, by decide⟩, rfl⟩
  | cons e table => exact ⟨e.2.lastIndexedAt, rfl⟩

theorem stamped_stamped (t t' : Timestamp) (table : Table) : (table.stamped t).stamped t' = table.stamped t' := by
  simp [stamped, Item.stamped]

theorem SameButTimes.at {table table' : Table} (h : SameButTimes table table') (t : Timestamp) :
    table.stamped t = table'.stamped t := by
  obtain ⟨t', h⟩ := h
  rw [← stamped_stamped t' t table, h, stamped_stamped]

/-- Tables stay the same but for times when such items are put into them. -/
theorem SameButTimes.putAll {table table' : Table} {items items' : List Item} (h : SameButTimes table table')
    (hitems : CardIndex.SameButTimes items items') : SameButTimes (table.putAll items) (table'.putAll items') := by
  obtain ⟨t, hitems⟩ := hitems
  refine ⟨t, ?_⟩
  rw [stamped_putAll, stamped_putAll, h.at t, hitems]

theorem SameButTimes.ofTree? {table table' : Table} (h : SameButTimes table table') :
    Option.Rel SameButTimes (ofTree? table.toTree.reread) (ofTree? table'.toTree.reread) := by
  obtain ⟨t, h⟩ := h
  have hread := ofTree?_stamped t table
  have hread' := ofTree?_stamped t table'
  rw [← h, hread] at hread'
  generalize Table.ofTree? table.toTree.reread = read at hread' ⊢
  generalize Table.ofTree? table'.toTree.reread = read' at hread' ⊢
  cases read with
  | none =>
    cases read' with
    | none => exact .none
    | some other => cases hread'
  | some one =>
    cases read' with
    | none => cases hread'
    | some other => exact .some ⟨t, Option.some.inj hread'⟩

end Table

namespace Dataset

theorem ofTree?_reread (d : Dataset) : ofTree? d.toTree.reread = (do
    let totalCards ← (natural d.totalCards).reread.natural?
    let cards ← (list Card.toTree d.cards).reread.list? Card.ofTree?
    some { d with totalCards, cards }) := by
  rw [ofTree?, toTree, bind_fields?_reread]
  · simp [Fields.required_cons]
  · rfl
  · decide

/-- A table is not read as a dataset: an item is no time. -/
theorem ofTree?_table (table : Table) : Dataset.ofTree? table.toTree.reread = none := by
  rw [Table.reread_toTree, ofTree?, fields?]
  cases hfields : knownMembers? _ _ with
  | none => rfl
  | some fields =>
    have htime : fields.required "generatedAt" Timestamp.ofTree? = none := by
      rw [Fields.required, Option.bind_eq_none_iff]
      intro t ht
      obtain ⟨front, back, hfound, -⟩ := List.lookup_eq_some_iff.1 ht
      have hmember := mem_of_knownMembers? hfields ("generatedAt", t) (by simp [hfound])
      obtain ⟨e, -, he⟩ := List.mem_map.1 hmember
      obtain rfl := (Prod.mk.inj he).2
      rfl
    simp [htime]

end Dataset

/-- The trees differ only in times that are written into them. -/
inductive Retimed : Tree → Tree → Prop
  | dataset (t t' : Timestamp) (cards : List Card) :
    Retimed (Dataset.ofCards t cards).toTree (Dataset.ofCards t' cards).toTree
  | table {a b : Table} (h : a.SameButTimes b) : Retimed a.toTree b.toTree

/-- Files hold the same, or what was written into them at different times. -/
inductive UpToTimes : ByteArray → ByteArray → Prop
  | same (content : ByteArray) : UpToTimes content content
  | texts {x y : Tree} (h : Retimed x y) : UpToTimes x.prettyText.toUTF8 y.prettyText.toUTF8

/-- What is read from two texts is related, or both cannot be read. -/
def ReadAlike {α : Type} (read? : Tree → Option α) (R : α → α → Prop) (text text' : String) : Prop :=
  Option.Rel R ((Tree.ofText? text).bind read?) ((Tree.ofText? text').bind read?)

theorem UpToTimes.decode {α : Type} {read? : Tree → Option α} {R : α → α → Prop} (hR : ∀ a, R a a)
    (hread : ∀ x y, Retimed x y → Option.Rel R (read? x.reread) (read? y.reread)) {a b : ByteArray} (h : UpToTimes a b) :
    Alike (ReadAlike read? R) (FileSystem.decode a) (FileSystem.decode b) := by
  cases h with
  | same =>
    cases FileSystem.decode a with
    | error e => exact .error e
    | ok text =>
      refine .ok ?_
      unfold ReadAlike
      cases (Tree.ofText? text).bind read? with
      | none => exact .none
      | some value => exact .some (hR value)
  | texts h =>
    rw [FileSystem.decode_toUTF8, FileSystem.decode_toUTF8]
    refine .ok ?_
    unfold ReadAlike
    rw [ofText?_prettyText, ofText?_prettyText]
    exact hread _ _ h

/-- The worlds differ at most in their times and in what was written into files at different times. -/
abbrev World.UpToTimes : World → World → Prop := World.Corresponds CardIndex.UpToTimes

namespace FileStore

theorem parallel_load (s : FileStore) (name : String) :
    Parallel World.UpToTimes World.UpToTimes Table.SameButTimes (s.load name) (s.load name) := by
  have hread (x y : Tree) (h : Retimed x y) :
      Option.Rel Table.SameButTimes (Table.ofTree? x.reread) (Table.ofTree? y.reread) := by
    cases h with
    | dataset t t' cards => exact .none
    | table h => exact h.ofTree?
  have htext := World.parallel_readText (fun _ _ => UpToTimes.decode Table.sameButTimes_refl hread) (s.tablePath name)
  refine htext.bind fun result result' h => ?_
  cases h with
  | ok h =>
    unfold ReadAlike at h
    dsimp only
    generalize (Tree.ofText? _).bind Table.ofTree? = read at h ⊢
    generalize (Tree.ofText? _).bind Table.ofTree? = read' at h ⊢
    cases h with
    | none => exact parallel_throw _
    | some h => exact parallel_pure h
  | error e =>
    cases e with
    | notFound => exact parallel_pure (Table.sameButTimes_refl [])
    | _ => exact parallel_throw _

theorem parallel_write (s : FileStore) (name : String) {items items' : List Item} (h : SameButTimes items items') :
    Parallel World.UpToTimes World.UpToTimes SameButTimes (s.write name items) (s.write name items') := by
  refine (s.parallel_load name).bind fun table table' htable => ?_
  refine (World.parallel_makeDirectories _).bind fun _ _ _ => ?_
  refine (World.parallel_write _ (.texts (.table (htable.putAll h)))).bind fun _ _ _ => ?_
  refine (World.parallel_move _ _).bind fun _ _ _ => ?_
  obtain ⟨t, -⟩ := h
  exact parallel_pure ⟨t, rfl⟩

end FileStore

theorem SameButTimes.eq_nil_iff {items items' : List Item} (h : SameButTimes items items') : items = [] ↔ items' = [] := by
  obtain ⟨t, h⟩ := h
  rw [← List.map_eq_nil_iff (f := Item.stamped t), h, List.map_eq_nil_iff]

theorem SameButTimes.length_eq {items items' : List Item} (h : SameButTimes items items') :
    items.length = items'.length := by
  obtain ⟨t, h⟩ := h
  simpa using congrArg List.length h

namespace Publisher

section

variable (p : Publisher (StateM World)) (hstore : ∀ items items', SameButTimes items items' →
  Parallel World.UpToTimes World.UpToTimes SameButTimes (p.store.batchWrite p.table items)
    (p.store.batchWrite p.table items'))

include hstore

theorem parallel_resend (left attempt : Nat) {pending pending' : List Item} (h : SameButTimes pending pending') :
    Parallel World.UpToTimes World.UpToTimes (fun a b => SameButTimes a.1 b.1 ∧ a.2 = b.2)
      (p.resend left attempt pending) (p.resend left attempt pending') := by
  induction left generalizing attempt pending pending' with
  | zero => exact parallel_pure ⟨h, rfl⟩
  | succ left ih =>
    unfold resend
    by_cases hempty : pending = []
    · rw [if_pos hempty, if_pos (h.eq_nil_iff.1 hempty)]
      exact parallel_pure ⟨h, rfl⟩
    · rw [if_neg hempty, if_neg (h.eq_nil_iff.not.1 hempty)]
      dsimp only
      cases p.policy.delay? (UInt32.ofNat (attempt + 1)) with
      | none => exact parallel_throw _
      | some delay =>
        have hpause : Parallel World.UpToTimes World.UpToTimes Eq (liftM (Clock.pause delay : StateM World Unit))
          (liftM (Clock.pause delay : StateM World Unit)) := parallel_lift fun _ _ hworlds => ⟨rfl, hworlds⟩
        exact hpause.bind fun _ _ _ => (hstore _ _ h).bind fun rest rest' hrest => ih _ hrest

theorem parallel_writeChunk (number : Nat) {chunk chunk' : List Item} (h : SameButTimes chunk chunk') :
    Parallel World.UpToTimes World.UpToTimes Eq (p.writeChunk number chunk) (p.writeChunk number chunk') := by
  refine (hstore _ _ h).bind fun rest rest' hrest => ?_
  refine (parallel_resend p hstore _ 0 hrest).bind fun (pending, attempts) (pending', attempts') hresent => ?_
  obtain ⟨hpending, rfl⟩ := hresent
  dsimp only
  by_cases hempty : pending = []
  · rw [if_pos hempty, if_pos (hpending.eq_nil_iff.1 hempty)]
    exact parallel_pure rfl
  · rw [if_neg hempty, if_neg (hpending.eq_nil_iff.not.1 hempty), hpending.length_eq]
    exact parallel_throw _

theorem parallel_writeChunks (number : Nat) {chunks chunks' : List (List Item)}
    (h : List.Forall₂ SameButTimes chunks chunks') :
    Parallel World.UpToTimes World.UpToTimes Eq (p.writeChunks number chunks) (p.writeChunks number chunks') := by
  induction h generalizing number with
  | nil => exact parallel_pure rfl
  | cons hchunk _ ih =>
    refine (parallel_writeChunk p hstore number hchunk).bind fun retries retries' hretries => ?_
    refine (ih _).bind fun others others' hothers => ?_
    exact parallel_pure (by rw [hretries, hothers])

/-- Publishing the same cards at another time makes no other difference. -/
theorem parallel_publish (cards : List Card) :
    Parallel World.UpToTimes World.UpToTimes Eq (p.publish cards) (p.publish cards) := by
  have hnow : Parallel World.UpToTimes World.UpToTimes (fun _ _ => True) (liftM (Clock.now : StateM World Timestamp))
    (liftM (Clock.now : StateM World Timestamp)) := parallel_lift fun _ _ hworlds => ⟨trivial, hworlds⟩
  refine hnow.bind fun now now' _ => ?_
  have hchunks : List.Forall₂ SameButTimes (chunksOf p.chunkSize (cards.map (·.toItem now)))
      (chunksOf p.chunkSize (cards.map (·.toItem now'))) := by
    rw [chunksOf_map, chunksOf_map, List.forall₂_map_left_iff, List.forall₂_map_right_iff, List.forall₂_same]
    exact fun chunk _ => ⟨now, by simp [Item.stamped, Card.toItem]⟩
  refine (parallel_writeChunks p hstore 1 hchunks).bind fun retries retries' hretries => ?_
  exact parallel_pure (by rw [hretries, hchunks.length_eq])

end

/-- Publishing to a store that keeps tables in files, at different times. -/
theorem parallel_standard (s : FileStore) (table : String) (cards : List Card) :
    Parallel World.UpToTimes World.UpToTimes Eq
      ((standard (s.store : CatalogStore (StateM World)) table).publish cards)
      ((standard (s.store : CatalogStore (StateM World)) table).publish cards) :=
  parallel_publish _ (fun _ _ h => s.parallel_write table h) cards

end Publisher

end CardIndex
