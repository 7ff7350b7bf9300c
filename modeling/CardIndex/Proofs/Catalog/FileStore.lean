import CardIndex.Proofs.Catalog.Codec
import CardIndex.Proofs.Catalog.Overwriting
import CardIndex.Proofs.Catalog.Uptake
import CardIndex.Proofs.World

namespace CardIndex

open Json Json.Tree

/-- The file that a path names can be read and holds a table; where it is missing, the table is empty. -/
def FileSystem.HoldsTable (fs : FileSystem) (path : Path) (table : Table) : Prop :=
  (∃ text, (fs.read path).bind decode = .ok text ∧ (Tree.ofText? text).bind Table.ofTree? = some table) ∨
    ((∀ content, fs.find? (fs.named path) ≠ some (.file content)) ∧ table = [])

theorem FileSystem.HoldsTable.spares {fs fs' : FileSystem} {path : Path} {table : Table}
    (h : fs.HoldsTable path table) (hspares : fs.Spares fs' (fs.named path)) : fs'.HoldsTable path table := by
  rcases h with ⟨text, hread, htable⟩ | ⟨hnone, htable⟩
  · refine .inl ⟨text, ?_, htable⟩
    cases hcontent : fs.read path with
    | error e => rw [hcontent] at hread; cases hread
    | ok content =>
      rw [hcontent] at hread
      rw [hspares.read hcontent]
      exact hread
  · refine .inr ⟨fun content hfile => ?_, htable⟩
    rw [hspares.named] at hfile
    exact hnone content ((hspares.file content).1 hfile)

/-- A table in a file can be written again, if its floats read back. -/
theorem FileSystem.HoldsTable.storable {fs : FileSystem} {path : Path} {table : Table}
    (h : fs.HoldsTable path table) (hnumbers : ∀ x ∈ table.numbers, x.ReadsBack) :
    Entries.Ordered table ∧ table.Storable := by
  rcases h with ⟨text, -, htable⟩ | ⟨-, rfl⟩
  · exact Table.storable_of_ofText? text table htable hnumbers
  · exact ⟨Entries.ordered_nil, fun e he => by cases he⟩

namespace FileStore

/-- The table that is loaded is the one that the file holds. -/
theorem load_succeeds (s : FileStore) (name : String) (w w' : World) (table loaded : Table)
    (hold : w.files.HoldsTable (s.tablePath name) table)
    (h : (s.load name : Attempt (StateM World) Table).Succeeds w loaded w') : loaded = table ∧ w' = w := by
  simp only [load, Attempt.succeeds_bind, Attempt.succeeds_lift, World.run_readText, Prod.mk.injEq] at h
  obtain ⟨result, t, ⟨hresult, rfl⟩, h⟩ := h
  split at h
  · rename_i text
    split at h
    · rename_i items hitems
      obtain ⟨rfl, rfl⟩ := (Attempt.succeeds_pure _ _ _ _).1 h
      refine ⟨?_, rfl⟩
      rcases hold with ⟨text', hread, htable⟩ | ⟨hnone, -⟩
      · rw [hresult] at hread
        obtain rfl := Except.ok.inj hread
        rw [hitems] at htable
        exact Option.some.inj htable
      · cases hcontent : w.files.read (s.tablePath name) with
        | error e => rw [hcontent] at hresult; cases hresult
        | ok content =>
          obtain ⟨-, -, hfile⟩ := (w.files.read_ok _ content).1 hcontent
          exact absurd hfile (hnone content)
    · exact absurd h (Attempt.not_succeeds_throw _ _ _ _)
  · obtain ⟨rfl, rfl⟩ := (Attempt.succeeds_pure _ _ _ _).1 h
    refine ⟨?_, rfl⟩
    rcases hold with ⟨text', hread, -⟩ | ⟨-, rfl⟩
    · rw [hresult] at hread
      cases hread
    · rfl
  · exact absurd h (Attempt.not_succeeds_throw _ _ _ _)

/-- A write takes all items into the table. The draft may even be written where the table's file is: it is
moved there anyway. -/
theorem write_succeeds (s : FileStore) (name : String) (items rest : List Item) (w w' : World) (table : Table)
    (hold : w.files.HoldsTable (s.tablePath name) table) (hordered : Entries.Ordered table)
    (htable : table.Storable) (hitems : ∀ i ∈ items, i.Storable)
    (h : (s.write name items : Attempt (StateM World) (List Item)).Succeeds w rest w') :
    rest = [] ∧ w'.now = w.now ∧ w'.files.HoldsTable (s.tablePath name) (table.putAll items) := by
  simp only [write, Attempt.succeeds_bind, Attempt.succeeds_io, Attempt.succeeds_pure] at h
  obtain ⟨loaded, t, hload, _, t1, hmake, _, t2, hwrite, _, t3, hmove, rfl, rfl⟩ := h
  obtain ⟨rfl, rfl⟩ := s.load_succeeds name w t table loaded hold hload
  have hnow := (World.spares_makeDirectories [] hmake).now
  obtain ⟨files2, hwritten, rfl⟩ := World.run_write hwrite
  obtain ⟨files3, hmoved, rfl⟩ := World.run_move hmove
  have hdraft := FileSystem.read_write _ _ _ _ hwritten
  obtain ⟨content, hsource, htarget⟩ := FileSystem.read_move _ _ _ _ hmoved
  refine ⟨rfl, hnow, .inl ⟨(Table.toTree (loaded.putAll items)).prettyText, ?_, ?_⟩⟩
  · rw [hdraft] at hsource
    obtain rfl := Except.ok.inj hsource
    rw [htarget]
    exact FileSystem.decode_toUTF8 _
  · have hstorable := Table.storable_putAll loaded items htable hitems
    exact (keeps_of_reread (Table.ofTree?_toTree _ (Table.ordered_putAll loaded items hordered) hstorable)).2

/-- What a table's file holds after items were written to it, in a world of a time. -/
def Holds (s : FileStore) (name : String) (old : Table) (now : Timestamp) (w : World)
    (items : List Item) : Prop :=
  w.now = now ∧ w.files.HoldsTable (s.tablePath name) (old.putAll items) ∧ Entries.Ordered (old.putAll items) ∧
    (old.putAll items).Storable

theorem takesAll (s : FileStore) (name : String) (old : Table) (now : Timestamp) :
    (Publisher.standard (s.store : CatalogStore (StateM World)) name).TakesAll (s.Holds name old now)
      Item.Storable := by
  intro w sofar batch rest w' hold hitems h
  obtain ⟨hnow, htable, hordered, hstorable⟩ := hold
  obtain ⟨rfl, hnow', htable'⟩ := s.write_succeeds name batch rest w w' _ htable hordered hstorable hitems h
  rw [Table.putAll_append] at htable'
  refine ⟨rfl, hnow'.trans hnow, htable', ?_, ?_⟩
  · rw [← Table.putAll_append]
    exact Table.ordered_putAll _ batch hordered
  · rw [← Table.putAll_append]
    exact Table.storable_putAll _ batch hstorable hitems

theorem onFiles_load (s : FileStore) (name : String) : World.OnFiles (s.load name) (s.load name) := by
  refine (World.onFiles_lift (Disk.readText (s.tablePath name))).bind fun result => ?_
  split
  · split
    · exact World.onFiles_pure _
    · exact World.onFiles_throw _
  · exact World.onFiles_pure _
  · exact World.onFiles_throw _

/-- A write in a world is a write in its files. -/
theorem onFiles_write (s : FileStore) (name : String) (items : List Item) :
    World.OnFiles (s.write name items) (s.write name items) := by
  refine (s.onFiles_load name).bind fun table => ?_
  refine (World.onFiles_io _).bind fun _ => ?_
  refine (World.onFiles_io _).bind fun _ => ?_
  exact (World.onFiles_io _).bind fun _ => World.onFiles_pure _

end FileStore

end CardIndex
