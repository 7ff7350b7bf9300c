import CardIndex.Proofs.CommandLine.Loading
import CardIndex.Proofs.Dataset.Files

namespace CardIndex

open Json Json.Tree

namespace CommandLine.Catalog

open Session

/-- Whether cards are enriched does not depend on what was printed before. -/
theorem enrich_succeeds (s : Settings) (printed : String) (w w' : World) :
    (∃ printed', Succeeds (enrich s : Session (StateM World) Unit) printed w () printed' w') ↔
      ∃ summary, (transform s.paths.raw s.paths.dataset s.paths.manifest :
        Attempt (StateM World) TransformSummary).Succeeds w summary w' := by
  unfold enrich
  simp only [succeeds_bind, succeeds_say, within, succeeds_attempt]
  constructor
  · rintro ⟨_, summary, _, t, ⟨htransform, -⟩, _, _, _, ⟨-, rfl⟩, _, _, _, ⟨-, rfl⟩, -, rfl⟩
    exact ⟨summary, htransform⟩
  · rintro ⟨summary, htransform⟩
    exact ⟨_, summary, _, w', ⟨htransform, rfl⟩, (), _, w', ⟨rfl, rfl⟩, (), _, w', ⟨rfl, rfl⟩, rfl, rfl⟩

theorem publish_succeeds (s : Settings) (printed : String) (w w' : World) :
    (∃ printed', Succeeds (publish s : Session (StateM World) Unit) printed w () printed' w') ↔
      ∃ table store d report, s.requireTable = .ok table ∧
        Backend.openStore s.catalog.backend s.catalog.storeDir s.catalog.region = .ok store ∧
        (readDataset s.paths.dataset : Attempt (StateM World) Dataset).Succeeds w d w ∧
        ((Publisher.standard store.store table).publish d.cards :
          Attempt (StateM World) PublishReport).Succeeds w report w' := by
  unfold publish
  simp only [succeeds_bind, succeeds_say, succeeds_settled, within, succeeds_attempt, Attempt.succeeds_bind]
  constructor
  · rintro ⟨_, table, _, _, ⟨htable, rfl, -⟩, store, _, _, ⟨hstore, rfl, -⟩, report, _, t,
      ⟨⟨d, t', hdataset, hpublish⟩, -⟩, -, rfl⟩
    obtain ⟨-, rfl⟩ := readDataset_succeeds _ _ _ _ hdataset
    exact ⟨table, store, d, report, htable, hstore, hdataset, hpublish⟩
  · rintro ⟨table, store, d, report, htable, hstore, hdataset, hpublish⟩
    exact ⟨_, table, _, w, ⟨htable, rfl, rfl⟩, store, _, w, ⟨hstore, rfl, rfl⟩, report, _, w',
      ⟨⟨d, w, hdataset, hpublish⟩, rfl⟩, rfl, rfl⟩

/-- A full run enriches cards and then publishes what it reads from the dataset's file. -/
theorem run_succeeds (table? : Option String) (s : Settings) (printed : String) (w w' : World) :
    (∃ printed', Succeeds (perform s (.run table?) : Session (StateM World) Unit) printed w () printed' w') ↔
      ∃ summary t table store d report,
        (transform s.paths.raw s.paths.dataset s.paths.manifest :
          Attempt (StateM World) TransformSummary).Succeeds w summary t ∧
        s.requireTable = .ok table ∧
        Backend.openStore s.catalog.backend s.catalog.storeDir s.catalog.region = .ok store ∧
        (readDataset s.paths.dataset : Attempt (StateM World) Dataset).Succeeds t d t ∧
        ((Publisher.standard store.store table).publish d.cards :
          Attempt (StateM World) PublishReport).Succeeds t report w' := by
  simp only [perform, succeeds_bind, succeeds_say, succeeds_settled]
  constructor
  · rintro ⟨_, _, _, _, ⟨-, rfl, -⟩, _, _, _, ⟨-, rfl⟩, _, _, t, henrich, _, _, _, ⟨-, rfl⟩, hpublish⟩
    obtain ⟨summary, htransform⟩ := (enrich_succeeds _ _ _ _).1 ⟨_, henrich⟩
    obtain ⟨table, store, d, report, hrest⟩ := (publish_succeeds _ _ _ _).1 ⟨_, hpublish⟩
    exact ⟨summary, _, table, store, d, report, htransform, hrest⟩
  · rintro ⟨summary, t, table, store, d, report, htransform, hrest⟩
    obtain ⟨p, henrich⟩ := (enrich_succeeds s _ w t).2 ⟨summary, htransform⟩
    obtain ⟨p', hpublish⟩ := (publish_succeeds s _ t w').2 ⟨table, store, d, report, hrest⟩
    exact ⟨p', table, printed, w, ⟨hrest.1, rfl, rfl⟩, (), _, w, ⟨rfl, rfl⟩, (), p, t, henrich, (), _, t,
      ⟨rfl, rfl⟩, hpublish⟩

theorem openStore_eq (backend : String) (root : Path) (region : String) (store : FileStore)
    (h : Backend.openStore backend root region = .ok store) : store = ⟨root, region⟩ := by
  unfold Backend.openStore at h
  split at h
  · exact (Except.ok.inj h).symm
  · split at h
    · cases h
    · cases h

/-- A full run succeeds if the cards can be enriched and then published as they are. That they are read from the
dataset's file makes nothing fail. -/
theorem run_succeeds_of_publish (table? : Option String) (s : Settings) (table text : String) (dump : Dump)
    (store : FileStore) (printed : String) (w t w' : World) (summary : TransformSummary) (report : PublishReport)
    (named : s.requireTable = .ok table)
    (opened : Backend.openStore s.catalog.backend s.catalog.storeDir s.catalog.region = .ok store)
    (raw : (w.files.read s.paths.raw).bind FileSystem.decode = .ok text) (accepted : Dump.ofText text = .ok dump)
    (dataset_manifest : w.files.named s.paths.dataset ≠ w.files.named s.paths.manifest)
    (length : dump.cards.length < UInt64.size) (numbers : ∀ c ∈ dump.cards, ∀ x ∈ c.numbers, x.ReadsBack)
    (enriched : (transform s.paths.raw s.paths.dataset s.paths.manifest :
      Attempt (StateM World) TransformSummary).Succeeds w summary t)
    (published : ((Publisher.standard store.store table).publish dump.cards :
      Attempt (StateM World) PublishReport).Succeeds t report w') :
    ∃ printed', Succeeds (perform s (.run table?) : Session (StateM World) Unit) printed w () printed' w' := by
  obtain ⟨hwritten, -⟩ := transform_succeeds _ _ _ w t text dump summary raw accepted dataset_manifest enriched
  have hstorable : (Dataset.ofCards w.now dump.cards).Storable := ⟨length, dump.storable_cards numbers⟩
  have hreading := readDataset_of_written _ t _ hstorable hwritten
  exact (run_succeeds table? s printed w w').2
    ⟨summary, t, table, store, _, report, enriched, named, opened, hreading, published⟩

/-- The file of the table that settings name. -/
def tableFile (s : Settings) (table : String) : Path :=
  FileStore.tablePath ⟨s.catalog.storeDir, s.catalog.region⟩ table

/-- A full run that ends with code zero leaves in the table's file the table that was there, or an empty one,
overwritten in row order with the items of the rows' cards. The files of the dataset, the manifest and the
table have to be three; the floats have to read back. -/
theorem run_overwrites_table (arguments : List String) (table? : Option String) (w w' : World) (out : Outcome)
    (s : Settings) (table text : String) (dump : Dump) (old : Table)
    (parsed : parse arguments = .perform (.run table?)) (loaded : found w = .ok s)
    (named : ((Task.run table?).adjust s).requireTable = .ok table)
    (raw : (w.files.read s.paths.raw).bind FileSystem.decode = .ok text) (accepted : Dump.ofText text = .ok dump)
    (hold : w.files.HoldsTable (tableFile s table) old)
    (dataset_manifest : w.files.named s.paths.dataset ≠ w.files.named s.paths.manifest)
    (dataset_table : w.files.named s.paths.dataset ≠ w.files.named (tableFile s table))
    (manifest_table : w.files.named s.paths.manifest ≠ w.files.named (tableFile s table))
    (numbers : ∀ c ∈ dump.cards, ∀ x ∈ c.numbers, x.ReadsBack) (oldNumbers : ∀ x ∈ old.numbers, x.ReadsBack)
    (ran : Id.run ((program arguments : StateM World Outcome).run w) = (out, w')) (code : out.code = 0) :
    w'.files.HoldsTable (tableFile s table) (old.putAll (dump.cards.map (·.toItem w.now))) := by
  have hperform := (code_eq_zero_iff arguments _ w w' out s parsed loaded ran).1 code
  obtain ⟨summary, t, name, store, d, report, htransform, hname, hstore, hdataset, hpublish⟩ :=
    (run_succeeds table? _ _ _ _).1 ⟨_, hperform⟩
  obtain rfl : table = name := Except.ok.inj (named.symm.trans hname)
  obtain rfl := openStore_eq _ _ _ store hstore
  obtain ⟨hwritten, hspares⟩ :=
    transform_succeeds _ _ _ w t text dump summary raw accepted dataset_manifest htransform
  have hkept := hspares _ dataset_table.symm manifest_table.symm
  have hcards := dump.storable_cards numbers
  obtain ⟨hordered, hstorable⟩ := hold.storable oldNumbers
  have hsame := readDataset_cards _ t t d (Dataset.ofCards w.now dump.cards) hwritten hcards hdataset
  rw [hsame] at hpublish
  have hheld := (FileStore.takesAll _ table old t.now).publish dump.cards t.now t w' report rfl
    ⟨rfl, hold.spares hkept.files, hordered, hstorable⟩ (fun c hc => (hcards c hc).toItem t.now) hpublish
  rw [hkept.now] at hheld
  exact hheld.2.1

/-- A world with a dump of one row and a file of variables that names a table. -/
def oneRow : World where
  files := {
    entries := [
      (["data"], .directory),
      (["data", "cards.raw.json"],
        .file "\x7b\"names\": [\"id\", \"name\", \"price\"], \"data\": [[\"x\", \"First\", \"2.5\"]]\x7d".toUTF8),
      ([".env"], .file "CATALOG_TABLE=cards".toUTF8)]
    workingDirectory := [] }
  tables := []
  environment := []
  images := fun _ => .failed
  requests := []
  now := ⟨⟨2024, 5, 6, by decide, by decide, by decide⟩, 7, 8, 9, 10,
    by decide, by decide, by decide, by decide⟩
  pauses := []

def oneRowSettings : Settings :=
  { Settings.standard with catalog := { Settings.standard.catalog with table := some "cards" } }

def oneRowCard : Card := Card.ofRow [("id", .string "x"), ("name", .string "First"), ("price", .string "2.5")] 0

theorem found_oneRow : found oneRow = .ok oneRowSettings := by
  have hread : oneRow.files.read (Path.join ("/" ++ "/".intercalate oneRow.files.workingDirectory) ".env") =
      .ok "CATALOG_TABLE=cards".toUTF8 := rfl
  have hadded : added oneRow = [("CATALOG_TABLE", "cards")] := by
    rw [added_of_read oneRow _ hread]
    decide +kernel
  apply eq_ok_of_toOption
  rw [found, hadded]
  decide +kernel

theorem cards_oneRow : ∃ text dump,
    (oneRow.files.read oneRowSettings.paths.raw).bind FileSystem.decode = .ok text ∧
    Dump.ofText text = .ok dump ∧ dump.cards = [oneRowCard] := by
  have hcards : ((oneRow.files.read oneRowSettings.paths.raw).bind FileSystem.decode).toOption.bind
      (fun text => (Dump.ofText text).toOption.map Dump.cards) = some [oneRowCard] := by decide +kernel
  obtain ⟨text, htext, hdump⟩ := Option.bind_eq_some_iff.1 hcards
  obtain ⟨dump, hdump, hcards⟩ := Option.map_eq_some_iff.1 hdump
  exact ⟨text, dump, eq_ok_of_toOption htext, eq_ok_of_toOption hdump, hcards⟩

theorem numbers_oneRow : ∀ x ∈ oneRowCard.numbers, x.ReadsBack := by
  have hnumbers : oneRowCard.numbers = [⟨false, 4612811918334230528, by decide⟩] := by decide +kernel
  rw [hnumbers]
  decide +kernel

/-- The world when the row's card has been enriched. -/
def oneRowEnriched : World :=
  (Id.run ((transform oneRowSettings.paths.raw oneRowSettings.paths.dataset oneRowSettings.paths.manifest :
    Attempt (StateM World) TransformSummary).run.run oneRow)).2

theorem run_succeeds_oneRow : ∃ printed w',
    Succeeds (perform oneRowSettings (.run none) : Session (StateM World) Unit) "" oneRow () printed w' := by
  have henriched : (Id.run ((transform oneRowSettings.paths.raw oneRowSettings.paths.dataset
      oneRowSettings.paths.manifest : Attempt (StateM World) TransformSummary).run.run oneRow)).1.toOption.isSome := by
    decide +kernel
  have hpublished : (Id.run (((Publisher.standard (FileStore.store ⟨"data/catalog", "local"⟩) "cards").publish
      [oneRowCard] : Attempt (StateM World) PublishReport).run.run oneRowEnriched)).1.toOption.isSome := by
    decide +kernel
  have hne : oneRow.files.named oneRowSettings.paths.dataset ≠
      oneRow.files.named oneRowSettings.paths.manifest := by decide +kernel
  obtain ⟨summary, henriching⟩ := Attempt.exists_succeeds_of_isSome henriched
  obtain ⟨report, hpublishing⟩ := Attempt.exists_succeeds_of_isSome hpublished
  obtain ⟨text, dump, hread, hdump, hcards⟩ := cards_oneRow
  rw [← hcards] at hpublishing
  have hlength : dump.cards.length < UInt64.size := by rw [hcards]; decide
  have hnumbers : ∀ c ∈ dump.cards, ∀ x ∈ c.numbers, x.ReadsBack := by
    rw [hcards]
    exact fun c hc => List.mem_singleton.1 hc ▸ numbers_oneRow
  obtain ⟨printed, hrun⟩ := run_succeeds_of_publish none oneRowSettings "cards" text dump _ "" oneRow oneRowEnriched
    _ summary report (eq_ok_of_toOption (by decide +kernel)) rfl hread hdump hne hlength hnumbers henriching
    hpublishing
  exact ⟨printed, _, hrun⟩

theorem run_overwrites_table_of_one_row : ∃ out w',
    Id.run ((program ["run"] : StateM World Outcome).run oneRow) = (out, w') ∧ out.code = 0 ∧
      w'.files.HoldsTable "data/catalog/local/cards.json" [("x", oneRowCard.toItem oneRow.now)] := by
  obtain ⟨printed, w', hrun⟩ := run_succeeds_oneRow
  have hparse : parse ["run"] = .perform (.run none) := by decide +kernel
  have hran := run_of_succeeds ["run"] (.run none) oneRow w' printed oneRowSettings hparse found_oneRow hrun
  obtain ⟨text, dump, hread, hdump, hcards⟩ := cards_oneRow
  have hfile : tableFile oneRowSettings "cards" = "data/catalog/local/cards.json" := by decide +kernel
  have hhold : oneRow.files.HoldsTable (tableFile oneRowSettings "cards") [] := by
    have hnone : (oneRow.files.find? (oneRow.files.named (tableFile oneRowSettings "cards"))).isNone = true := by
      decide +kernel
    refine .inr ⟨fun content hcontent => ?_, rfl⟩
    rw [hcontent] at hnone
    cases hnone
  have hheld := run_overwrites_table ["run"] none oneRow w' _ oneRowSettings "cards" text dump [] hparse
    found_oneRow (eq_ok_of_toOption (by decide +kernel)) hread hdump hhold (by decide +kernel) (by decide +kernel)
    (by decide +kernel) (by rw [hcards]; exact fun c hc => List.mem_singleton.1 hc ▸ numbers_oneRow)
    (by decide) hran rfl
  have htable : Table.putAll [] [oneRowCard.toItem oneRow.now] = [("x", oneRowCard.toItem oneRow.now)] := by
    have hslug : (oneRowCard.toItem oneRow.now).slug = "x" := by decide +kernel
    rw [Table.putAll, List.foldl_cons, List.foldl_nil, hslug, Entries.put]
  rw [hfile, hcards, List.map_singleton, htable] at hheld
  exact ⟨_, w', hran, rfl, hheld⟩

end CommandLine.Catalog

end CardIndex
