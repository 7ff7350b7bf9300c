import CardIndex.Proofs.Catalog.FileStore
import CardIndex.Proofs.Catalog.Publication

namespace CardIndex

open Attempt FileSystem Json Json.Tree CardIndex.Path

namespace FileStore

/-- The file that a table is written to before it gets the table's name. -/
def draftPath (s : FileStore) (name : String) : Path := (s.tablePath name).withFileType "json.tmp"

/-- What is loaded from the text of a file, or from its failure to be read. -/
def loadedFrom : Except IoError String → Except Failure Table
  | .ok text =>
    match (Tree.ofText? text).bind Table.ofTree? with
    | some table => .ok table
    | none => .error .json
  | .error .notFound => .ok []
  | .error e => .error (.io e)

theorem ends_load (s : FileStore) (name : String) (fs fs' : FileSystem) (r : Except Failure Table) :
    (s.load name : Attempt (StateM FileSystem) Table).Ends fs r fs' ↔
      r = loadedFrom ((fs.read (s.tablePath name)).bind decode) ∧ fs' = fs := by
  have hread : Id.run ((liftM (Disk.readText (s.tablePath name) : StateM FileSystem (Except IoError String)) :
      Attempt (StateM FileSystem) (Except IoError String)).run.run fs) =
        (.ok ((fs.read (s.tablePath name)).bind decode), fs) := rfl
  have hrun : Id.run ((s.load name : Attempt (StateM FileSystem) Table).run.run fs) =
      (loadedFrom ((fs.read (s.tablePath name)).bind decode), fs) := by
    rw [load, run_bind, hread]
    dsimp only
    generalize (fs.read (s.tablePath name)).bind decode = result
    cases result with
    | ok text =>
      unfold loadedFrom
      dsimp only
      cases (Tree.ofText? text).bind Table.ofTree? with
      | some table => rfl
      | none => rfl
    | error e => cases e <;> rfl
  unfold Ends
  rw [hrun, Prod.mk.injEq, eq_comm, @eq_comm _ fs]

/-- A table's file has a name of the table's own, the draft one that no table's file has. -/
theorem exists_tablePath_endsIn (s : FileStore) (name : String) :
    ∃ front base, EndsIn (s.tablePath name) front (base ++ ".json".toList) := by
  obtain ⟨before, hbefore⟩ : ∃ before : List Char, (s.tablePath name).toList = before ++ ".json".toList := by
    unfold tablePath join
    split
    · exact ⟨name.toList, by simp⟩
    · split
      · exact ⟨(s.directory ++ name).toList, by simp⟩
      · exact ⟨(s.directory ++ "/" ++ name).toList, by simp⟩
  obtain ⟨front, base, h⟩ := exists_endsIn before
  exact ⟨front, base, h.append (by decide) (by simpa using hbefore)⟩

theorem draftPath_endsIn (s : FileStore) (name : String) :
    (s.draftPath name).asksForDirectory = true ∨
      ∃ front base, EndsIn (s.draftPath name) front (base ++ ".json.tmp".toList) := by
  obtain ⟨front, base, h⟩ := s.exists_tablePath_endsIn name
  by_cases hdots : stemOf (base ++ ".json".toList) = ['.']
  · exact .inl (h.withFileType_dots "json.tmp" hdots)
  · have htype : '/' ∉ "json.tmp".toList := by decide
    exact .inr ⟨front, _, h.withFileType htype hdots⟩

theorem isName_append (base : List Char) {ending : List Char} (h : '/' ∉ base ++ ending)
    (hlength : 2 < ending.length) : IsName (String.ofList (base ++ ending)) := by
  refine isName_of_length (by simpa using h) ?_
  rw [← String.length_toList, String.toList_ofList, List.length_append]
  omega

/-- Nor does any path of a table lead to where a draft is. -/
theorem named_draftPath_ne (s : FileStore) (fs : FileSystem) (name other : String)
    (h : (s.draftPath name).asksForDirectory = false) :
    fs.named (s.draftPath name) ≠ fs.named (s.tablePath other) := by
  rcases s.draftPath_endsIn name with hasks | ⟨front, base, hdraft⟩
  · rw [hasks] at h
    cases h
  obtain ⟨front', base', htable⟩ := s.exists_tablePath_endsIn other
  obtain ⟨above, habove⟩ := exists_named fs hdraft (isName_append base hdraft.slash (by decide))
  obtain ⟨above', habove'⟩ := exists_named fs htable (isName_append base' htable.slash (by decide))
  rw [habove, habove']
  intro heq
  have hnames := List.getLast?_concat .. ▸ congrArg List.getLast? heq
  rw [List.getLast?_concat, Option.some.injEq] at hnames
  have hlast := congrArg (fun n : String => n.toList.getLast?) hnames
  simp at hlast

/-- The ways in which a write ends: before the draft is written, before it is moved, or with all done. -/
theorem write_cases {s : FileStore} {name : String} {items : List Item} {fs fs' : FileSystem}
    {r : Except Failure (List Item)}
    (h : (s.write name items : Attempt (StateM FileSystem) (List Item)).Ends fs r fs') :
    ∃ made : FileSystem, (∀ place, Spares fs made place) ∧
      (((∃ e, r = .error e) ∧ fs' = made) ∨
      ∃ table drafted, loadedFrom ((fs.read (s.tablePath name)).bind decode) = .ok table ∧
        made.write (s.draftPath name) (Table.toTree (table.putAll items)).prettyText.toUTF8 = .ok drafted ∧
        (((∃ e, r = .error e) ∧ fs' = drafted) ∨
          (r = .ok [] ∧ drafted.move (s.draftPath name) (s.tablePath name) = .ok fs'))) := by
  have hspares : ∀ {result made}, Id.run ((Disk.makeDirectories s.directory : StateM FileSystem _).run fs) =
      (result, made) → ∀ place, Spares fs made place := by
    intro result made hmade place
    have hsparing := spares_makeDirectories s.directory place fs
    rw [show made = (makeDirectories s.directory fs).2 from (Prod.mk.inj hmade).2.symm]
    exact hsparing
  simp only [write, ends_bind, ends_load, ends_io_ok, ends_io_error, ends_pure, run_write_ok, run_write_error,
    run_move_ok, run_move_error] at h
  rcases h with ⟨table, _, ⟨htable, rfl⟩, h⟩ | ⟨e, ⟨-, rfl⟩, rfl⟩
  · rcases h with ⟨_, made, hmade, h⟩ | ⟨e, ⟨_, hmade, -⟩, rfl⟩
    · refine ⟨made, hspares hmade, ?_⟩
      rcases h with ⟨_, drafted, hwrite, h⟩ | ⟨e, ⟨_, hwrite, -⟩, rfl⟩
      · refine .inr ⟨table, drafted, htable.symm, hwrite, ?_⟩
        rcases h with ⟨_, moved, hmove, rfl, rfl⟩ | ⟨e, ⟨_, hmove, -⟩, rfl⟩
        · exact .inr ⟨rfl, hmove⟩
        · exact .inl ⟨⟨e, rfl⟩, hmove.2⟩
      · exact .inl ⟨⟨e, rfl⟩, hwrite.2⟩
    · exact ⟨fs', hspares hmade, .inl ⟨⟨e, rfl⟩, rfl⟩⟩
  · exact ⟨fs', fun place => Spares.refl fs' place, .inl ⟨⟨e, rfl⟩, rfl⟩⟩

/-- Whatever comes of a write, all places stay as they are but those of the table's file and of its draft. -/
theorem spares_write {s : FileStore} {name : String} {items : List Item} {fs fs' : FileSystem}
    {r : Except Failure (List Item)}
    (h : (s.write name items : Attempt (StateM FileSystem) (List Item)).Ends fs r fs') (place : Place)
    (htable : place ≠ fs.named (s.tablePath name) ∨ ∃ e, r = .error e)
    (hdraft : (s.draftPath name).asksForDirectory = false → place ≠ fs.named (s.draftPath name)) :
    Spares fs fs' place := by
  obtain ⟨made, hspares, ⟨-, rfl⟩ | ⟨table, drafted, -, hwrite, h⟩⟩ := write_cases h
  · exact hspares place
  · have hmade := hspares place
    obtain ⟨-, hasks, -, -⟩ := made.write_ok drafted _ _ hwrite
    have hother := hdraft hasks
    rw [← hmade.named] at hother
    have hdrafted := hmade.trans (made.spares_write drafted _ _ place hwrite hother)
    rcases h with ⟨-, rfl⟩ | ⟨rfl, hmove⟩
    · exact hdrafted
    · rcases htable with htable | ⟨e, he⟩
      · rw [← hdrafted.named] at htable
        have hsource : place ≠ drafted.named (s.draftPath name) := by
          rw [hdrafted.named, ← hmade.named]
          exact hother
        exact hdrafted.trans (drafted.spares_move fs' _ _ place hmove hsource htable)
      · cases he

/-- A write that takes everything leaves a file with the whole table. What is loaded from it is the table as its text
is read, and so the table itself if the floats in it read back. -/
theorem write_takes {s : FileStore} {name : String} {items rest : List Item} {fs fs' : FileSystem}
    (h : (s.write name items : Attempt (StateM FileSystem) (List Item)).Ends fs (.ok rest) fs') :
    rest = [] ∧ ∃ table : Table, (s.load name : Attempt (StateM FileSystem) Table).Ends fs (.ok table) fs ∧
      fs'.read (s.tablePath name) = .ok (Table.toTree (table.putAll items)).prettyText.toUTF8 := by
  obtain ⟨made, -, ⟨⟨e, he⟩, -⟩ | ⟨table, drafted, hload, hwrite, ⟨⟨e, he⟩, -⟩ | ⟨hrest, hmove⟩⟩⟩ := write_cases h
  · cases he
  · cases he
  have hdraft := made.read_write drafted _ _ hwrite
  obtain ⟨content, hsource, htarget⟩ := drafted.read_move fs' _ _ hmove
  rw [hdraft] at hsource
  obtain rfl := Except.ok.inj hsource
  exact ⟨Except.ok.inj hrest, table, (ends_load ..).2 ⟨hload.symm, rfl⟩, htarget⟩

theorem load_of_prettyText {s : FileStore} {name : String} {fs : FileSystem} {table reread : Table}
    (h : fs.read (s.tablePath name) = .ok (Table.toTree table).prettyText.toUTF8)
    (hread : Table.ofTree? (Table.toTree table).reread = some reread) :
    (s.load name : Attempt (StateM FileSystem) Table).Ends fs (.ok reread) fs := by
  rw [ends_load, h, Except.bind, decode_toUTF8]
  refine ⟨?_, rfl⟩
  rw [loadedFrom, ofText?_prettyText, Option.bind_some, hread]

end FileStore

end CardIndex
