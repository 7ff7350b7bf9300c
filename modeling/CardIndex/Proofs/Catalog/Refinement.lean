import CardIndex.Proofs.Catalog.FileStore
import CardIndex.Proofs.Catalog.Overwriting
import CardIndex.Proofs.Catalog.Publication
import CardIndex.Proofs.Disk.Directory

namespace CardIndex

open Attempt FileSystem Json Json.Tree CardIndex.Path

/-- A name for a table whose file can be drafted: the draft for the dot would be the directory above. -/
structure IsTableName (name : String) : Prop where
  slash : '/' ∉ name.toList
  dot : name ≠ "."

namespace IsTableName

variable {name other : String}

def file (name : String) : String := name ++ ".json"

def draft (name : String) : String := (if name = "" then ".json" else name) ++ ".json.tmp"

theorem isName_file (h : IsTableName name) : IsName (file name) := by
  have hslash : '/' ∉ (file name).toList := by simpa [file] using h.slash
  have hjson : ".json".length = 5 := rfl
  apply isName_of_length hslash
  rw [file, String.length_append, hjson]
  omega

theorem isName_draft (h : IsTableName name) : IsName (draft name) := by
  have hslash : '/' ∉ (draft name).toList := by
    unfold draft
    split
    · decide
    · simpa using h.slash
  have htype : ".json.tmp".length = 9 := rfl
  apply isName_of_length hslash
  rw [draft, String.length_append, htype]
  omega

theorem draft_ne_file (name other : String) : draft name ≠ file other := by
  intro h
  have hlast := congrArg (fun n : String => n.toList.getLast?) h
  simp [draft, file] at hlast

theorem file_inj (h : file name = file other) : name = other := (String.append_left_inj _).1 h

/-- The draft is written beside the table's file. -/
theorem withFileType_tablePath (h : IsTableName name) (s : FileStore) :
    (s.tablePath name).withFileType "json.tmp" = s.directory.join (draft name) := by
  have hfile : '/' ∉ (file name).toList := h.isName_file.slash
  have htype : '/' ∉ "json.tmp".toList := by decide
  have hstem : String.ofList (stemOf (file name).toList) = if name = "" then ".json" else name := by
    by_cases hempty : name = ""
    · subst hempty
      decide
    · have hname : name.toList ≠ [] := by simpa using hempty
      have hjson : (file name).toList = name.toList ++ '.' :: ['j', 's', 'o', 'n'] := by simp [file]
      rw [hjson, stemOf_append hname (by decide), if_neg hempty, String.ofList_toList]
  have hdot : stemOf (file name).toList ≠ ['.'] := by
    intro hdot
    rw [hdot] at hstem
    split at hstem
    · exact absurd hstem (by decide)
    · exact h.dot hstem.symm
  have hpath : s.tablePath name = s.directory.join (file name) := rfl
  have hends : (".json.tmp" : String) = "." ++ "json.tmp" := rfl
  rw [hpath, withFileType_join s.directory hfile hdot htype, hstem, draft, hends, String.append_assoc]

end IsTableName

namespace FileStore

open IsTableName

/-- The directory is there or can be made, and lists nothing. -/
def StartsEmpty (s : FileStore) (fs : FileSystem) : Prop :=
  ∃ made place, FileSystem.makeDirectories s.directory fs = (.ok (), made) ∧ made.Leads s.directory place ∧
    ∀ name, made.find? (place ++ [name]) = none

/-- A region of an empty root is empty. -/
theorem startsEmpty_of_root {s : FileStore} {fs : FileSystem} {place : Place} (hroot : fs.Leads s.root place)
    (hregion : IsName s.region) (hnone : ∀ name below, fs.find? (place ++ name :: below) = none) :
    s.StartsEmpty fs := by
  have hmade := hroot.makeDirectories_join hregion (hnone s.region [])
  have hspares := spares_makeDirectories s.directory [] fs
  have hplace : place ++ [s.region] ≠ [] := by simp
  have hdirectory : s.directory = s.root.join s.region := rfl
  rw [hdirectory, hmade] at hspares
  refine ⟨_, place ++ [s.region], hmade, (hroot.spares hspares).join hregion ?_, fun name => ?_⟩
  · rw [find?_put _ _ _ _ hplace, if_pos rfl]
  · rw [find?_put _ _ _ _ hplace, if_neg (by simp), List.append_assoc]
    exact hnone s.region [name]

/-- The directory lists no directories, and of each table the file that was written last. -/
structure Shows (s : FileStore) (place : Place) (fs : FileSystem) (tables : Tables) : Prop where
  leads : fs.Leads s.directory place
  free : ∀ name, fs.find? (place ++ [name]) ≠ some .directory
  table : ∀ name, (fs.find? (place ++ [file name]) = none ∧ tables.table name = []) ∨
    fs.find? (place ++ [file name]) = some (.file (tables.table name).toTree.prettyText.toUTF8)
  ordered : ∀ name, Entries.Ordered (tables.table name)
  storable : ∀ name, (tables.table name).Storable

/-- The simulation: tables are loaded as they are in memory, and shown once the directory is made. -/
structure Refines (s : FileStore) (place : Place) (fs : FileSystem) (tables : Tables) : Prop where
  load : ∀ name, IsTableName name →
    (s.load name : Attempt (StateM FileSystem) Table).Succeeds fs (tables.table name) fs
  made : ∃ made, FileSystem.makeDirectories s.directory fs = (.ok (), made) ∧ s.Shows place made tables

variable {s : FileStore} {place : Place} {fs : FileSystem} {tables : Tables}

theorem load_of_notFound {name : String} (h : fs.read (s.tablePath name) = .error .notFound) :
    (s.load name : Attempt (StateM FileSystem) Table).Succeeds fs [] fs := by
  simp only [FileStore.load, succeeds_bind, succeeds_lift, run_readText, h]
  refine ⟨.error .notFound, fs, rfl, ?_⟩
  simp

theorem load_of_text {name text : String} {table : Table} (h : fs.read (s.tablePath name) = .ok text.toUTF8)
    (htable : (Tree.ofText? text).bind Table.ofTree? = some table) :
    (s.load name : Attempt (StateM FileSystem) Table).Succeeds fs table fs := by
  simp only [FileStore.load, succeeds_bind, succeeds_lift, run_readText, h]
  refine ⟨.ok text, fs, ?_, ?_⟩
  · rw [Except.bind, decode_toUTF8]
  · simp only [htable]
    simp

theorem Shows.load (h : s.Shows place fs tables) (name : String) (hname : IsTableName name) :
    (s.load name : Attempt (StateM FileSystem) Table).Succeeds fs (tables.table name) fs := by
  rcases h.table name with ⟨hnone, hempty⟩ | hfile
  · rw [hempty]
    exact load_of_notFound (h.leads.read_none hname.isName_file hnone)
  · have hread := h.leads.read_file hname.isName_file hfile
    have hkeeps := keeps_of_reread (Table.ofTree?_toTree _ (h.ordered name) (h.storable name))
    exact load_of_text hread hkeeps.2

theorem Shows.refines (h : s.Shows place fs tables) : s.Refines place fs tables :=
  ⟨h.load, fs, h.leads.makeDirectories, h⟩

/-- With an empty directory all tables are empty. -/
theorem StartsEmpty.refines (h : s.StartsEmpty fs) : ∃ place, s.Refines place fs [] := by
  obtain ⟨made, place, hmade, hleads, hnone⟩ := h
  have hshows : s.Shows place made [] := by
    refine ⟨hleads, fun name => ?_, fun name => .inl ⟨hnone _, rfl⟩, fun name => Entries.ordered_nil, ?_⟩
    · rw [hnone]
      simp
    · intro name e he
      cases he
  have hgrown : Grown fs made := by
    apply grown_of_spares
    intro p
    have hspares := spares_makeDirectories s.directory p fs
    rw [hmade] at hspares
    exact hspares
  refine ⟨place, fun name hname => ?_, made, hmade, hshows⟩
  have hread := hleads.read_none hname.isName_file (hnone _)
  apply load_of_notFound
  rcases hgrown.read (s.tablePath name) with hmissing | hsame
  · exact hmissing
  · rw [hsame]
    exact hread

/-- What is shown once a table's new file is in its place and the draft of it is gone. -/
theorem Shows.write (h : s.Shows place fs tables) {fs' : FileSystem} (name : String) (items : List Item)
    (hitems : ∀ i ∈ items, i.Storable) (hleads : fs'.Leads s.directory place)
    (hfind : ∀ p, fs'.find? p =
      if p = place ++ [file name] then
        some (.file (Table.toTree ((tables.table name).putAll items)).prettyText.toUTF8)
      else if p = place ++ [draft name] then none else fs.find? p) :
    s.Shows place fs' (tables.write name items) where
  leads := hleads
  free other := by
    rw [hfind]
    split
    · simp
    · split
      · simp
      · exact h.free other
  table other := by
    rw [Tables.table_write]
    by_cases hsame : other = name
    · subst hsame
      right
      rw [if_pos rfl, hfind, if_pos rfl]
    · have hfile : place ++ [file other] ≠ place ++ [file name] := by
        intro heq
        apply hsame
        apply file_inj
        simpa using heq
      have hdraft : place ++ [file other] ≠ place ++ [draft name] := by
        intro heq
        have hnames : file other = draft name := by simpa using heq
        exact draft_ne_file name other hnames.symm
      rw [if_neg hsame, hfind, if_neg hfile, if_neg hdraft]
      exact h.table other
  ordered other := by
    rw [Tables.table_write]
    split
    · exact Table.ordered_putAll _ items (h.ordered name)
    · exact h.ordered other
  storable other := by
    rw [Tables.table_write]
    split
    · exact Table.storable_putAll _ items (h.storable name) hitems
    · exact h.storable other

/-- One write of both stores. -/
theorem Refines.write (h : s.Refines place fs tables) {name : String} (hname : IsTableName name) (items : List Item)
    (hitems : ∀ i ∈ items, i.Storable) : ∃ fs',
      (s.write name items : Attempt (StateM FileSystem) (List Item)).Succeeds fs [] fs' ∧
        s.Refines place fs' (tables.write name items) := by
  obtain ⟨made, hmade, hshows⟩ := h.made
  have hother := draft_ne_file name name
  obtain ⟨drafted, fs', hwrite, hmove, hleads, hfind⟩ :=
    hshows.leads.replace hname.isName_draft hname.isName_file hother
    (Table.toTree ((tables.table name).putAll items)).prettyText.toUTF8 (hshows.free _) (hshows.free _)
  rw [← hname.withFileType_tablePath s] at hwrite hmove
  refine ⟨fs', ?_, (hshows.write name items hitems hleads hfind).refines⟩
  simp only [FileStore.write, succeeds_bind, succeeds_io, succeeds_pure]
  exact ⟨_, fs, h.load name hname, (), made, hmade, (), drafted, (run_write_ok _ _ _ _ _).2 hwrite, (), fs',
    (run_move_ok _ _ _ _ _).2 hmove, trivial, rfl⟩

/-- The writes of a run, one after the other. -/
theorem Refines.run (h : s.Refines place fs tables) (calls : List (String × List Item))
    (hnames : ∀ c ∈ calls, IsTableName c.1) (hitems : ∀ c ∈ calls, ∀ i ∈ c.2, i.Storable) : ∃ fs',
      (calls.mapM fun c => s.store.batchWrite c.1 c.2 : Attempt (StateM FileSystem) (List (List Item))).Succeeds
        fs (calls.map fun _ => []) fs' ∧
      s.Refines place fs' (calls.foldl (fun t c => t.write c.1 c.2) tables) := by
  induction calls generalizing fs tables with
  | nil =>
    refine ⟨fs, ?_, h⟩
    simp
  | cons c calls ih =>
    rw [List.forall_mem_cons] at hnames hitems
    obtain ⟨t, hwrite, hrefines⟩ := h.write hnames.1 c.2 hitems.1
    obtain ⟨fs', hothers, hfinal⟩ := ih hrefines hnames.2 hitems.2
    refine ⟨fs', ?_, hfinal⟩
    simp only [List.mapM_cons, succeeds_bind, succeeds_pure]
    exact ⟨[], t, hwrite, _, fs', hothers, rfl, rfl⟩

end FileStore

namespace Tables

theorem run (tables : Tables) (calls : List (String × List Item)) :
    (calls.mapM fun c => store.batchWrite c.1 c.2 : Attempt (StateM Tables) (List (List Item))).Succeeds tables
      (calls.map fun _ => []) (calls.foldl (fun t c => t.write c.1 c.2) tables) := by
  induction calls generalizing tables with
  | nil => simp
  | cons c calls ih =>
    have hwrite : (store.batchWrite c.1 c.2 : Attempt (StateM Tables) (List Item)).Succeeds tables []
        (tables.write c.1 c.2) := rfl
    simp only [List.mapM_cons, succeeds_bind, succeeds_pure]
    exact ⟨[], _, hwrite, _, _, ih _, rfl, rfl⟩

/-- The items that were written into a table, in their order. -/
def itemsOf (calls : List (String × List Item)) (name : String) : List Item :=
  (calls.filter (·.1 = name)).flatMap (·.2)

theorem holdings_foldl (tables : Tables) (calls : List (String × List Item)) (name slug : String) :
    Tables.holdings (calls.foldl (fun t c => t.write c.1 c.2) tables) name slug =
      (latest (itemsOf calls name) slug).or (tables.holdings name slug) := by
  induction calls generalizing tables with
  | nil => simp [itemsOf]
  | cons c calls ih =>
    rw [List.foldl_cons, ih, holdings_write]
    by_cases hname : c.1 = name
    · simp [itemsOf, Holdings.write, hname, latest_append, Option.or_assoc]
    · simp [itemsOf, Holdings.write, hname, Ne.symm hname]

end Tables

/-- Whatever is written into whatever tables, beginning with an empty directory: both stores take everything, and
each table that is loaded from its file is the table in memory, which has the last item of each slug and no other. -/
theorem fileStore_refines_memory (s : FileStore) (fs : FileSystem) (empty : s.StartsEmpty fs)
    (calls : List (String × List Item)) (names : ∀ c ∈ calls, IsTableName c.1)
    (numbers : ∀ c ∈ calls, ∀ i ∈ c.2, i.Storable) :
    ∃ fs' tables,
      (calls.mapM fun c => s.store.batchWrite c.1 c.2 : Attempt (StateM FileSystem) (List (List Item))).Succeeds
        fs (calls.map fun _ => []) fs' ∧
      (calls.mapM fun c => Tables.store.batchWrite c.1 c.2 : Attempt (StateM Tables) (List (List Item))).Succeeds
        [] (calls.map fun _ => []) tables ∧
      ∀ name, IsTableName name →
        (s.load name : Attempt (StateM FileSystem) Table).Succeeds fs' (tables.table name) fs' ∧
        Entries.Ordered (tables.table name) ∧
        ∀ slug, Entries.get? (tables.table name) slug = latest (Tables.itemsOf calls name) slug := by
  obtain ⟨place, hstart⟩ := empty.refines
  obtain ⟨fs', hrun, hrefines⟩ := hstart.run calls names numbers
  refine ⟨fs', _, hrun, Tables.run [] calls, ?_⟩
  intro name hname
  obtain ⟨made, -, hshows⟩ := hrefines.made
  refine ⟨hrefines.load name hname, hshows.ordered name, fun slug => ?_⟩
  have hheld := Tables.holdings_foldl [] calls name slug
  have hnone : Tables.holdings [] name slug = none := rfl
  rw [hnone, Option.or_none] at hheld
  exact hheld

/-- Two tables, of which one takes a slug three times in two writes and the other an empty batch. -/
theorem fileStore_refines_memory_of_repeated_slug :
    let s : FileStore := ⟨"store", "local"⟩
    let fs : FileSystem := ⟨[(["store"], .directory)], []⟩
    let item (slug name : String) : Item := (Card.plain slug name).toItem (timeAt (⟨[], [], []⟩ : Shelf))
    let calls := [("cards", [item "a" "First", item "b" "Other", item "a" "Second"]), ("", []),
      ("cards", [item "a" "Third"])]
    s.StartsEmpty fs ∧ ∃ fs' table,
      (calls.mapM fun c => s.store.batchWrite c.1 c.2 : Attempt (StateM FileSystem) (List (List Item))).Succeeds
        fs [[], [], []] fs' ∧
      (s.load "cards" : Attempt (StateM FileSystem) Table).Succeeds fs' table fs' ∧
      Entries.get? table "a" = some (item "a" "Third") ∧ Entries.get? table "b" = some (item "b" "Other") := by
  intro s fs item calls
  have hstart : s.StartsEmpty fs := by
    have hparts : parts s.root = ["store"] := parts_name (by decide) (by decide)
    have hroot : fs.Leads s.root ["store"] := by
      have hstart : fs.start s.root = [] := by
        rw [start, isAbsolute_name (by decide)]
        rfl
      have hstep : fs.step [] "store" = .ok ["store"] := (step_ok _ _ _ _).2 ⟨by simp [walk], rfl⟩
      refine ⟨?_, rfl⟩
      rw [hparts, hstart, List.foldlM_cons, hstep]
      rfl
    have hregion : IsName s.region := isName_of_length (by decide) (by decide)
    refine FileStore.startsEmpty_of_root hroot hregion fun name below => ?_
    simp [find?, fs]
  have hstorable (slug name : String) : (item slug name).Storable := by
    constructor
    · intro n hn
      cases hn
    · intro x hx
      cases hx
  have hcards : IsTableName "cards" := ⟨by decide, by decide⟩
  have hnames : ∀ c ∈ calls, IsTableName c.1 := by
    have hempty : IsTableName "" := ⟨by decide, by decide⟩
    simp [calls, hcards, hempty]
  have hnumbers : ∀ c ∈ calls, ∀ i ∈ c.2, i.Storable := by
    simp [calls, hstorable]
  obtain ⟨fs', tables, hrun, -, hload⟩ := fileStore_refines_memory s fs hstart calls hnames hnumbers
  obtain ⟨hloaded, -, hlatest⟩ := hload "cards" hcards
  refine ⟨hstart, fs', _, hrun, hloaded, ?_, ?_⟩
  · rw [hlatest]
    rfl
  · rw [hlatest]
    rfl

end CardIndex
