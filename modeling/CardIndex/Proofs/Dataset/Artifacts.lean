import CardIndex.Proofs.Dataset.Files
import CardIndex.Proofs.Disk.Brittle

namespace CardIndex

open Attempt Json

section

variable {σ : Type} [Disk (StateM σ)] [Clock (StateM σ)] {files : σ → FileSystem}

/-- The file that a path names holds the beginning of a text, which may be nothing and may be all of it. -/
def FileSystem.HoldsBeginning (fs : FileSystem) (path : Path) (text : String) : Prop :=
  ∃ n, fs.read path = .ok (text.toUTF8.extract 0 n)

namespace Brittle

theorem files_of_readDump (hdisk : Brittle files) {path : Path} {s s' : σ} {r : Except Failure Dump}
    (h : (readDump path : Attempt (StateM σ) Dump).Ends s r s') : files s' = files s := by
  have hsame : Preserves (fun t => files t = files s) (readDump path : Attempt (StateM σ) Dump) :=
    preserves_readDump (fun path t ht => (hdisk.holds path t).trans ht) (fun path t ht => (hdisk.read path t).trans ht)
      path
  exact (congrArg (fun run => files run.2) h).symm.trans (hsame s rfl)

theorem text_of_readDump (hdisk : Brittle files) {path : Path} {s s' : σ} {dump : Dump}
    (h : (readDump path : Attempt (StateM σ) Dump).Succeeds s dump s') :
    ∃ text, ((files s).read path).bind FileSystem.decode = .ok text ∧ Dump.ofText text = .ok dump := by
  obtain ⟨text, htext, hdump⟩ := exists_text_of_readDump h
  obtain ⟨content, hread, hdecoded⟩ := exists_content_of_readInput htext
  have hfound := hdisk.found path _ s' content hread
  rw [hdisk.holds] at hfound
  refine ⟨text, ?_, hdump⟩
  rw [hfound]
  exact hdecoded

/-- The one write of a JSON file is made where no file has changed yet. -/
theorem writeJson_cases (hdisk : Brittle files) {path : Path} {tree : Tree} {s s' : σ} {r : Except Failure Unit}
    (h : (writeJson path tree : Attempt (StateM σ) Unit).Ends s r s') :
    (∃ e, r = .error (.io e) ∧ ∀ place, (files s).Spares (files s') place) ∨
      ∃ t, (∀ place, (files s).Spares (files t) place) ∧
        (Attempt.io (Disk.write path tree.prettyText.toUTF8) : Attempt (StateM σ) Unit).Ends t r s' :=
  CardIndex.writeJson_cases (fun t t' => ∀ place, (files t).Spares (files t') place)
    (fun t place => .refl (files t) place) hdisk.makeDirectories h

theorem writeJson_succeeds (hdisk : Brittle files) {path : Path} {tree : Tree} {s s' : σ}
    (h : (writeJson path tree : Attempt (StateM σ) Unit).Succeeds s () s') :
    (files s').read path = .ok tree.prettyText.toUTF8 ∧
      ∀ place, place ≠ (files s).named path → (files s).Spares (files s') place := by
  rcases hdisk.writeJson_cases h with ⟨e, he, -⟩ | ⟨t, hspares, hwrite⟩
  · cases he
  have hwritten := hdisk.written path _ t s' ((Attempt.ends_io_ok _ _ _ _).1 hwrite)
  refine ⟨FileSystem.read_write _ _ _ _ hwritten, fun place hplace => ?_⟩
  rw [← (hspares []).named] at hplace
  exact (hspares place).trans (FileSystem.spares_write _ _ _ _ place hwritten hplace)

/-- A JSON file that could not be written is as it was, or begun if the write broke off. -/
theorem writeJson_fails (hdisk : Brittle files) {path : Path} {tree : Tree} {s s' : σ} {f : Failure}
    (h : (writeJson path tree : Attempt (StateM σ) Unit).Ends s (.error f) s') :
    (∃ e, f = .io e) ∧ (∀ place, place ≠ (files s).named path → (files s).Spares (files s') place) ∧
      ((files s).Spares (files s') ((files s).named path) ∨
        ¬ WritesWhole files ∧ (files s').HoldsBeginning path tree.prettyText) := by
  rcases hdisk.writeJson_cases h with ⟨e, he, hspares⟩ | ⟨t, hspares, hwrite⟩
  · exact ⟨⟨e, Except.error.inj he⟩, fun place _ => hspares place, .inl (hspares _)⟩
  obtain ⟨e, hrun, rfl⟩ := (Attempt.ends_io_error _ _ _ _).1 hwrite
  refine ⟨⟨e, rfl⟩, ?_⟩
  by_cases hsame : files s' = files t
  · rw [hsame]
    exact ⟨fun place _ => hspares place, .inl (hspares _)⟩
  · have htorn : ¬ WritesWhole files := fun hwhole => hsame (hwhole _ _ t s' e hrun)
    obtain ⟨n, hbegun⟩ := (hdisk.brokenOff _ _ t s' e hrun).resolve_left hsame
    refine ⟨fun place hplace => ?_, .inr ⟨htorn, n, FileSystem.read_write _ _ _ _ hbegun⟩⟩
    rw [← (hspares []).named] at hplace
    exact (hspares place).trans (FileSystem.spares_write _ _ _ _ place hbegun hplace)

end Brittle

/-- One of the two files could not be written: the dataset's write broke off, or the dataset was written and then the
manifest could not be. -/
inductive HalfWritten (files : σ → FileSystem) (dataset manifest : Path) (text text' : String) (s s' : σ) : Prop
  | dataset (torn : ¬ WritesWhole files) (begun : (files s').HoldsBeginning dataset text)
      (kept : (files s).Spares (files s') ((files s).named manifest))
  | manifest (written : (files s').read dataset = .ok text.toUTF8)
      (rest : (files s).Spares (files s') ((files s).named manifest) ∨
        ¬ WritesWhole files ∧ (files s').HoldsBeginning manifest text')

/-- What a transform that fails leaves. -/
structure Halted (files : σ → FileSystem) (raw dataset manifest : Path) (s : σ) (f : Failure) (s' : σ) : Prop where
  /-- Neither of the two files is changed, unless a dump was read and then one of them could not be written. -/
  artifacts : (∀ path ∈ [dataset, manifest], (files s).Spares (files s') ((files s).named path)) ∨
    ∃ text dump now, ((files s).read raw).bind FileSystem.decode = .ok text ∧ Dump.ofText text = .ok dump ∧
      (∃ t, (readDump raw : Attempt (StateM σ) Dump).Succeeds s dump t ∧
        (Id.run ((Clock.now : StateM σ Timestamp).run t)).1 = now) ∧
      HalfWritten files dataset manifest (dump.datasetTree now).prettyText dump.manifestTree.prettyText s s' ∧
      ∃ e, f = .io e
  others : ∀ place, place ≠ (files s).named dataset → place ≠ (files s).named manifest →
    (files s).Spares (files s') place
  /-- Nothing at all is changed unless a file could not be read or written. -/
  input : (∀ e, f ≠ .io e) → files s' = files s

/-- Where no write breaks off the manifest is always left alone. -/
theorem Halted.manifest {raw dataset manifest : Path} {s s' : σ} {f : Failure}
    (h : Halted files raw dataset manifest s f s') (hwhole : WritesWhole files) :
    (files s).Spares (files s') ((files s).named manifest) := by
  rcases h.artifacts with hkept | ⟨_, _, _, -, -, -, hhalf, -⟩
  · exact hkept manifest (by simp)
  · cases hhalf with
    | dataset _ _ kept => exact kept
    | manifest _ rest => exact rest.resolve_right fun ⟨torn, _⟩ => torn hwhole

/-- A transform that fails leaves its two files and all others alone, unless it fails in writing one of the two. Then the
dataset may be written and the manifest not, and where writes can break off the file that was being written is begun. -/
theorem transform_halted (hdisk : Brittle files) (raw dataset manifest : Path) (s s' : σ) (f : Failure)
    (hne : (files s).named dataset ≠ (files s).named manifest)
    (h : (transform raw dataset manifest : Attempt (StateM σ) TransformSummary).Ends s (.error f) s') :
    Halted files raw dataset manifest s f s' := by
  rcases transform_cases h with ⟨f', -, hread⟩ | ⟨dump, t, now, t', hread, hnow, hends⟩
  · have hfiles := hdisk.files_of_readDump hread
    have hspares (place : Place) : (files s).Spares (files s') place := hfiles ▸ .refl _ place
    exact ⟨.inl fun path _ => hspares _, fun place _ _ => hspares place, fun _ => hfiles⟩
  obtain ⟨text, htext, hdump⟩ := hdisk.text_of_readDump hread
  have hfiles : files t' = files s := by
    have hclock := hdisk.now t
    rw [hnow] at hclock
    exact hclock.trans (hdisk.files_of_readDump hread)
  have htime : (Id.run ((Clock.now : StateM σ Timestamp).run t)).1 = now := congrArg Prod.fst hnow
  rcases hends with ⟨f', hf, hdataset⟩ | ⟨u, hdataset, ⟨f', hf, hmanifest⟩ | ⟨-, hsummary⟩⟩
  · obtain rfl := Except.error.inj hf
    obtain ⟨⟨e, rfl⟩, hothers, hfirst⟩ := hdisk.writeJson_fails hdataset
    rw [hfiles] at hothers hfirst
    refine ⟨?_, fun place hplace _ => hothers place hplace, fun hinput => absurd rfl (hinput e)⟩
    rcases hfirst with hkept | ⟨htorn, hbegun⟩
    · left
      simpa using ⟨hkept, hothers _ hne.symm⟩
    · exact .inr ⟨text, dump, now, htext, hdump, ⟨t, hread, htime⟩, .dataset htorn hbegun (hothers _ hne.symm), e, rfl⟩
  · obtain rfl := Except.error.inj hf
    obtain ⟨hwritten, hspares⟩ := hdisk.writeJson_succeeds hdataset
    rw [hfiles] at hspares
    obtain ⟨⟨e, rfl⟩, hothers, hsecond⟩ := hdisk.writeJson_fails hmanifest
    have hnamed (path : Path) : (files u).named path = (files s).named path := (hspares _ hne.symm).named path
    simp only [hnamed] at hothers hsecond
    have hkept : (files u).Spares (files s') ((files u).named dataset) := hnamed dataset ▸ hothers _ hne
    refine ⟨.inr ⟨text, dump, now, htext, hdump, ⟨t, hread, htime⟩, .manifest (hkept.read hwritten) ?_, e, rfl⟩, ?_,
      fun hinput => absurd rfl (hinput e)⟩
    · exact hsecond.imp_left (hspares _ hne.symm).trans
    · exact fun place hplace hplace' => (hspares place hplace).trans (hothers place hplace')
  · cases hsummary

end

/-- A world with a raw dump and the files that are in the directory of the other two. -/
def workplace (raw : String) (out : List (String × Node)) : World where
  files := {
    entries := (["raw.json"], .file raw.toUTF8) :: (["out"], .directory) :: out.map fun (name, node) =>
      (["out", name], node)
    workingDirectory := [] }
  tables := []
  environment := []
  images := fun _ => .failed
  requests := []
  now := ⟨⟨2021, 11, 30, by decide, by decide, by decide⟩, 21, 43, 54, 333,
    by decide, by decide, by decide, by decide⟩
  pauses := []

def transformOut : Attempt (StateM World) TransformSummary := transform "raw.json" "out/cards.json" "out/images.json"

/-- There is an old dataset, and a directory in the manifest's place. -/
def blocked : World :=
  workplace "\x7b\"names\": [], \"data\": []\x7d" [("cards.json", .file "old".toUTF8), ("images.json", .directory)]

/-- There are an old dataset and an old manifest, and no room for more than three bytes of the second file. -/
def crowded : Faulty where
  world := workplace "\x7b\"names\": [], \"data\": []\x7d"
    [("cards.json", .file "old".toUTF8), ("images.json", .file "older".toUTF8)]
  breaks := [none, some (1, .other "No space left on device (os error 28)")]

def crowdedOut : Attempt (StateM Faulty) TransformSummary := transform "raw.json" "out/cards.json" "out/images.json"

/-- Where a directory is in its place the manifest is left alone; where the room gives out it is begun. -/
theorem transform_halted_at_directory :
    (∃ w', transformOut.Ends blocked (.error (.io .isADirectory)) w' ∧
      Halted World.files "raw.json" "out/cards.json" "out/images.json" blocked (.io .isADirectory) w' ∧
      blocked.files.Spares w'.files (blocked.files.named "out/images.json")) ∧
    ∃ e t', crowdedOut.Ends crowded (.error (.io e)) t' ∧
      Halted (·.world.files) "raw.json" "out/cards.json" "out/images.json" crowded (.io e) t' ∧
      t'.world.files.read "out/images.json" = .ok "[".toUTF8 := by
  constructor
  · obtain ⟨w', hends⟩ : ∃ w', transformOut.Ends blocked (.error (.io .isADirectory)) w' :=
      ⟨_, ends_of_fst (by decide +kernel)⟩
    have hne : blocked.files.named "out/cards.json" ≠ blocked.files.named "out/images.json" := by decide +kernel
    have halted : Halted World.files "raw.json" "out/cards.json" "out/images.json" blocked (.io .isADirectory) w' :=
      transform_halted World.brittle _ _ _ _ _ _ hne hends
    exact ⟨w', hends, halted, halted.manifest World.writesWhole⟩
  · obtain ⟨t', hends⟩ : ∃ t', crowdedOut.Ends crowded
        (.error (.io (.other "No space left on device (os error 28)"))) t' := ⟨_, ends_of_fst (by decide +kernel)⟩
    have hread : (Id.run (crowdedOut.run.run crowded)).2.world.files.read "out/images.json" = .ok "[".toUTF8 :=
      eq_ok_of_toOption (by decide +kernel)
    have hne : crowded.world.files.named "out/cards.json" ≠ crowded.world.files.named "out/images.json" := by
      decide +kernel
    rw [hends] at hread
    exact ⟨_, t', hends, transform_halted Faulty.brittle _ _ _ _ _ _ hne hends, hread⟩

/-- A dataset that is written before the manifest fails takes the place of the old one. -/
theorem dataset_replaced_by_failed_transform : ∃ w', transformOut.Ends blocked (.error (.io .isADirectory)) w' ∧
    blocked.files.named "out/cards.json" ≠ blocked.files.named "out/images.json" ∧
    blocked.files.read "out/cards.json" = .ok "old".toUTF8 ∧
    w'.files.read "out/cards.json" ≠ .ok "old".toUTF8 :=
  ⟨_, ends_of_fst (by decide +kernel), by decide +kernel, by decide +kernel, by decide +kernel⟩

/-- What a transform that succeeds has written, and what is read from it. -/
structure Published (raw dataset manifest : Path) (w : World) (dump : Dump) (summary : TransformSummary)
    (w' : World) : Prop where
  /-- Of what the two files held nothing is left. -/
  datasetText : w'.files.read dataset = .ok (dump.datasetTree w.now).prettyText.toUTF8
  manifestText : w'.files.read manifest = .ok dump.manifestTree.prettyText.toUTF8
  readsDataset : dump.rows.length < UInt64.size → (∀ c ∈ dump.cards, ∀ x ∈ c.numbers, x.ReadsBack) →
    (readDataset dataset : Attempt (StateM World) Dataset).Succeeds w' ⟨w.now, dump.rows.length, dump.cards⟩ w'
  readsManifest :
    (readManifest manifest : Attempt (StateM World) (List ManifestEntry)).Succeeds w' dump.manifest w'
  totalCards : summary.totalCards = dump.manifest.length
  withImage : summary.withImage = dump.manifest.countP (·.remote.isSome)
  others : ∀ place, place ≠ w.files.named dataset → place ≠ w.files.named manifest → w.Spares w' place
  rawKept : w.files.named raw ≠ w.files.named dataset → w.files.named raw ≠ w.files.named manifest →
    w'.files.read raw = w.files.read raw

/-- A transform that succeeds has read a dump, and both files hold what belongs to its cards and nothing else. -/
theorem transform_published (raw dataset manifest : Path) (w w' : World) (summary : TransformSummary)
    (hne : w.files.named dataset ≠ w.files.named manifest)
    (h : (transform raw dataset manifest : Attempt (StateM World) TransformSummary).Succeeds w summary w') :
    ∃ text dump, (w.files.read raw).bind FileSystem.decode = .ok text ∧ Dump.ofText text = .ok dump ∧
      Published raw dataset manifest w dump summary w' := by
  obtain ⟨text, dump, t, htext, hdump, hdataset, hmanifest, rfl⟩ := written_of_transform h
  obtain ⟨hfile, hfile', hspares⟩ := writeJson_both hne hdataset hmanifest
  have hlength : dump.cards.length = dump.rows.length := List.length_mapIdx
  refine ⟨text, dump, htext, hdump, ?_⟩
  exact {
    datasetText := hfile
    manifestText := hfile'
    readsDataset := by
      intro hsize hnumbers
      rw [← hlength] at hsize ⊢
      exact readDataset_of_written dataset w' (Dataset.ofCards w.now dump.cards)
        ⟨hsize, dump.storable_cards hnumbers⟩ hfile
    readsManifest := readManifest_of_written manifest w' _ hfile'
    totalCards := (List.length_map _).symm
    withImage := List.countP_eq_length_filter.symm
    others := hspares
    rawKept := by
      intro hraw hraw'
      cases hcontent : w.files.read raw with
      | error e => rw [hcontent] at htext; cases htext
      | ok content => exact (hspares _ hraw hraw').files.read hcontent }

/-- There are files that an earlier run left. -/
def rerun : World :=
  workplace "\x7b\"names\": [\"id\", \"image\", \"price\"], \"data\": [[\"x\", \"u\", \"2.5\"]]\x7d"
    [("cards.json", .file "old".toUTF8), ("images.json", .file "older".toUTF8)]

theorem transform_published_over_old_files : ∃ summary w',
    transformOut.Succeeds rerun summary w' ∧ summary.totalCards = 1 ∧ summary.withImage = 1 ∧
      (readManifest "out/images.json" : Attempt (StateM World) (List ManifestEntry)).Succeeds w'
        [⟨"x", none, some "u", "assets/cards/x.webp"⟩] w' ∧
      ∃ c, (readDataset "out/cards.json" : Attempt (StateM World) Dataset).Succeeds w' ⟨rerun.now, 1, [c]⟩ w' := by
  have hrun : (Id.run (transformOut.run.run rerun)).1.toOption.isSome := by decide +kernel
  obtain ⟨summary, hrun⟩ := exists_succeeds_of_isSome hrun
  have hne : rerun.files.named "out/cards.json" ≠ rerun.files.named "out/images.json" := by decide +kernel
  obtain ⟨text, dump, htext, hdump, published⟩ := transform_published _ _ _ _ _ _ hne hrun
  let c := Card.ofRow [("id", .string "x"), ("image", .string "u"), ("price", .string "2.5")] 0
  have hcards : dump.cards = [c] := by
    have hread : ((rerun.files.read "raw.json").bind FileSystem.decode).toOption.bind
        (fun text => (Dump.ofText text).toOption.map Dump.cards) = some [c] := by decide +kernel
    rw [htext] at hread
    simp only [Except.toOption, Option.bind_some, hdump, Option.map_some] at hread
    exact Option.some.inj hread
  have hlength : dump.rows.length = 1 := by
    have hmapped : dump.cards.length = dump.rows.length := List.length_mapIdx
    rw [← hmapped, hcards]
    rfl
  have hnumbers : ∀ c' ∈ dump.cards, ∀ x ∈ c'.numbers, x.ReadsBack := by
    have hfloats : c.numbers = [⟨false, 4612811918334230528, by decide⟩] := by decide +kernel
    rw [hcards, List.forall_mem_singleton, hfloats]
    decide +kernel
  have hmanifest : dump.manifest = [⟨"x", none, some "u", "assets/cards/x.webp"⟩] := by
    rw [Dump.manifest, hcards]
    decide +kernel
  have hdataset := published.readsDataset (by rw [hlength]; decide) hnumbers
  rw [hlength, hcards] at hdataset
  have htotal := published.totalCards
  have himages := published.withImage
  have hentries := published.readsManifest
  rw [hmanifest] at htotal himages hentries
  exact ⟨summary, _, hrun, htotal, himages, hentries, c, hdataset⟩

end CardIndex
