import CardIndex.Dataset.Files
import CardIndex.Proofs.Catalog.FileStore
import CardIndex.Proofs.Preservation

namespace CardIndex

open Json Json.Tree

section

variable {σ : Type} [Disk (StateM σ)]

/-- A text that has been read is that of the file, which was looked for before. -/
theorem exists_content_of_readInput {path : Path} {s s' : σ} {text : String}
    (h : (readInput path : Attempt (StateM σ) String).Succeeds s text s') :
    ∃ content, Id.run ((Disk.read path : StateM σ (Except IoError ByteArray)).run
        (Id.run ((Disk.holds path : StateM σ Bool).run s)).2) = (.ok content, s') ∧
      FileSystem.decode content = .ok text := by
  simp only [readInput, Attempt.succeeds_bind, Attempt.succeeds_lift] at h
  obtain ⟨present, t, hpresent, h⟩ := h
  rw [hpresent]
  split at h
  · rw [Attempt.succeeds_io] at h
    obtain ⟨hdecoded, rfl⟩ := Prod.mk.inj h
    cases hread : Id.run ((Disk.read path : StateM σ (Except IoError ByteArray)).run t) with
    | mk result t' =>
      cases result with
      | error e =>
        have herror : (Except.error e : Except IoError ByteArray).bind FileSystem.decode = .ok text :=
          (congrArg (·.1.bind FileSystem.decode) hread).symm.trans hdecoded
        cases herror
      | ok content =>
        refine ⟨content, Prod.ext rfl (congrArg Prod.snd hread).symm, ?_⟩
        exact (congrArg (·.1.bind FileSystem.decode) hread).symm.trans hdecoded
  · exact absurd h (Attempt.not_succeeds_throw _ _ _ _)

/-- A dump that has been read is that of a text that has been read. -/
theorem exists_text_of_readDump {path : Path} {s s' : σ} {dump : Dump}
    (h : (readDump path : Attempt (StateM σ) Dump).Succeeds s dump s') :
    ∃ text, (readInput path : Attempt (StateM σ) String).Succeeds s text s' ∧ Dump.ofText text = .ok dump := by
  simp only [readDump, Attempt.succeeds_bind] at h
  obtain ⟨text, t, htext, h⟩ := h
  split at h
  · rename_i hdump
    obtain ⟨rfl, rfl⟩ := (Attempt.succeeds_pure _ _ _ _).1 h
    exact ⟨text, htext, hdump⟩
  · exact absurd h (Attempt.not_succeeds_throw _ _ _ _)
  · exact absurd h (Attempt.not_succeeds_throw _ _ _ _)

variable {inv : σ → Prop}

theorem preserves_readInput (hholds : ∀ path s, inv s → inv (Id.run ((Disk.holds path : StateM σ Bool).run s)).2)
    (hread : ∀ path s, inv s → inv (Id.run ((Disk.read path : StateM σ (Except IoError ByteArray)).run s)).2)
    (path : Path) : Preserves inv (readInput path : Attempt (StateM σ) String) := by
  unfold readInput
  refine (preserves_lift (hholds path)).bind fun present => ?_
  split
  · exact preserves_io (hread path)
  · exact preserves_throw _

/-- A dump is looked for, and no more. -/
theorem preserves_readDump (hholds : ∀ path s, inv s → inv (Id.run ((Disk.holds path : StateM σ Bool).run s)).2)
    (hread : ∀ path s, inv s → inv (Id.run ((Disk.read path : StateM σ (Except IoError ByteArray)).run s)).2)
    (path : Path) : Preserves inv (readDump path : Attempt (StateM σ) Dump) := by
  unfold readDump
  refine (preserves_readInput hholds hread path).bind fun text => ?_
  split
  · exact preserves_pure _
  · exact preserves_throw _
  · exact preserves_throw _

end

theorem readInput_succeeds (path : Path) (w w' : World) (text : String)
    (h : (readInput path : Attempt (StateM World) String).Succeeds w text w') :
    (w.files.read path).bind FileSystem.decode = .ok text ∧ w' = w := by
  obtain ⟨content, hread, htext⟩ := exists_content_of_readInput h
  obtain ⟨hcontent, rfl⟩ := Prod.mk.inj hread
  have hfound : w.files.read path = .ok content := hcontent
  rw [hfound]
  exact ⟨htext, rfl⟩

theorem readDump_succeeds (path : Path) (w w' : World) (dump : Dump)
    (h : (readDump path : Attempt (StateM World) Dump).Succeeds w dump w') :
    (∃ text, (w.files.read path).bind FileSystem.decode = .ok text ∧ Dump.ofText text = .ok dump) ∧ w' = w := by
  obtain ⟨text, htext, hdump⟩ := exists_text_of_readDump h
  obtain ⟨hread, hsame⟩ := readInput_succeeds path w w' text htext
  exact ⟨⟨text, hread, hdump⟩, hsame⟩

theorem readDataset_succeeds (path : Path) (w w' : World) (d : Dataset)
    (h : (readDataset path : Attempt (StateM World) Dataset).Succeeds w d w') :
    (∃ text, (w.files.read path).bind FileSystem.decode = .ok text ∧
      (Tree.ofText? text).bind Dataset.ofTree? = some d) ∧ w' = w := by
  simp only [readDataset, Attempt.succeeds_bind] at h
  obtain ⟨text, t, htext, h⟩ := h
  obtain ⟨hread, rfl⟩ := readInput_succeeds path w t text htext
  split at h
  · rename_i hdataset
    obtain ⟨rfl, rfl⟩ := (Attempt.succeeds_pure _ _ _ _).1 h
    exact ⟨⟨text, hread, hdataset⟩, rfl⟩
  · exact absurd h (Attempt.not_succeeds_throw _ _ _ _)

/-- A file that is there is read as the text that its content is, if it is one. -/
theorem readInput_ends (path : Path) (w : World) (content : ByteArray) (hread : w.files.read path = .ok content) :
    (readInput path : Attempt (StateM World) String).Ends w ((FileSystem.decode content).mapError .io) w := by
  have hholds : w.files.holds path = true := by
    unfold FileSystem.holds
    unfold FileSystem.read at hread
    cases hnode : w.files.follow path with
    | error e => rw [hnode] at hread; cases hread
    | ok node => rfl
  rw [readInput, Attempt.ends_bind]
  refine .inl ⟨true, w, ?_, ?_⟩
  · rw [Attempt.ends_lift, World.run_holds, hholds]
    exact ⟨true, rfl, rfl⟩
  · rw [if_pos rfl, Attempt.Ends, Attempt.run_operation, World.run_readText, hread]
    rfl

/-- A text is read from the file that it was written to. -/
theorem readInput_of_written (path : Path) (w : World) (text : String)
    (hread : w.files.read path = .ok text.toUTF8) :
    (readInput path : Attempt (StateM World) String).Succeeds w text w := by
  have hends := readInput_ends path w text.toUTF8 hread
  rwa [FileSystem.decode_toUTF8] at hends

/-- A dataset is read from the file that it was written to. -/
theorem readDataset_of_written (path : Path) (w : World) (d : Dataset) (h : d.Storable)
    (hread : w.files.read path = .ok d.toTree.prettyText.toUTF8) :
    (readDataset path : Attempt (StateM World) Dataset).Succeeds w d w := by
  simp only [readDataset, Attempt.succeeds_bind]
  refine ⟨_, w, readInput_of_written path w _ hread, ?_⟩
  rw [ofText?_prettyText, Option.bind_some, Dataset.ofTree?_toTree d h, Attempt.succeeds_pure]
  exact ⟨rfl, rfl⟩

theorem readManifest_of_written (path : Path) (w : World) (entries : List ManifestEntry)
    (hread : w.files.read path = .ok (Tree.list ManifestEntry.toTree entries).prettyText.toUTF8) :
    (readManifest path : Attempt (StateM World) (List ManifestEntry)).Succeeds w entries w := by
  simp only [readManifest, Attempt.succeeds_bind]
  refine ⟨_, w, readInput_of_written path w _ hread, ?_⟩
  rw [ofText?_prettyText, Option.bind_some, ManifestEntry.list?_toTree, Attempt.succeeds_pure]
  exact ⟨rfl, rfl⟩

/-- The cards that are read are those that were written, even if the total does not fit. -/
theorem readDataset_cards (path : Path) (w w' : World) (d written : Dataset)
    (hwritten : w.files.read path = .ok written.toTree.prettyText.toUTF8)
    (hstorable : ∀ c ∈ written.cards, c.Storable)
    (h : (readDataset path : Attempt (StateM World) Dataset).Succeeds w d w') : d.cards = written.cards := by
  obtain ⟨⟨content, hcontent, hdecoded⟩, -⟩ := readDataset_succeeds _ _ _ _ h
  rw [hwritten, Except.bind, FileSystem.decode_toUTF8] at hcontent
  obtain rfl := Except.ok.inj hcontent
  rw [ofText?_prettyText, Option.bind_some] at hdecoded
  exact Dataset.cards_of_ofTree? written d hstorable hdecoded

/-- What is kept while directories are made is kept up to the one write of a JSON file, or to a failure before it. -/
theorem writeJson_cases {σ : Type} [Disk (StateM σ)] (kept : σ → σ → Prop) (hrefl : ∀ s, kept s s)
    (hmake : ∀ parent s, kept s (Id.run ((Disk.makeDirectories parent : StateM σ (Except IoError Unit)).run s)).2)
    {path : Path} {tree : Tree} {s s' : σ} {r : Except Failure Unit}
    (h : (writeJson path tree : Attempt (StateM σ) Unit).Ends s r s') :
    (∃ e, r = .error (.io e) ∧ kept s s') ∨
      ∃ t, kept s t ∧ (Attempt.io (Disk.write path tree.prettyText.toUTF8) : Attempt (StateM σ) Unit).Ends t r s' := by
  unfold writeJson at h
  split at h
  · rename_i parent _
    split at h
    · rcases (Attempt.ends_bind _ _ _ _ _).1 h with ⟨_, t, hmade, hwrite⟩ | ⟨f, hmade, rfl⟩
      · have hkept := hmake parent s
        rw [(Attempt.ends_io_ok _ _ _ _).1 hmade] at hkept
        exact .inr ⟨t, hkept, hwrite⟩
      · obtain ⟨e, hrun, rfl⟩ := (Attempt.ends_io_error _ _ _ _).1 hmade
        have hkept := hmake parent s
        rw [hrun] at hkept
        exact .inl ⟨e, rfl, hkept⟩
    · exact .inr ⟨s, hrefl s, h⟩
  · exact .inr ⟨s, hrefl s, h⟩

/-- A JSON file is written, and then read as the text of its tree while no other file is touched, or it cannot be
written and no file is touched at all. -/
theorem writeJson_ends (path : Path) (tree : Tree) (w w' : World) (r : Except Failure Unit)
    (h : (writeJson path tree : Attempt (StateM World) Unit).Ends w r w') :
    (r = .ok () ∧ w'.files.read path = .ok tree.prettyText.toUTF8 ∧
      ∀ place, place ≠ w.files.named path → w.Spares w' place) ∨
    ∃ e, r = .error (.io e) ∧ ∀ place, w.Spares w' place := by
  have hmake (parent : Path) (t : World) : ∀ place,
      t.Spares (Id.run ((Disk.makeDirectories parent : StateM World (Except IoError Unit)).run t)).2 place :=
    fun place => World.spares_makeDirectories place rfl
  rcases writeJson_cases (fun t t' => ∀ place, t.Spares t' place) (fun t place => .refl t place) hmake h with
    hfailed | ⟨t, hspares, hwrite⟩
  · exact .inr hfailed
  cases r with
  | ok u =>
    obtain ⟨files, hfiles, rfl⟩ := World.run_write ((Attempt.ends_io_ok _ _ _ _).1 hwrite)
    refine .inl ⟨rfl, FileSystem.read_write _ _ _ _ hfiles, fun place hplace => ?_⟩
    rw [← (hspares []).files.named] at hplace
    exact (hspares place).trans ⟨FileSystem.spares_write _ _ _ _ place hfiles hplace, rfl⟩
  | error f =>
    obtain ⟨e, hrun, rfl⟩ := (Attempt.ends_io_error _ _ _ _).1 hwrite
    obtain rfl := World.run_write_error hrun
    exact .inr ⟨e, rfl, hspares⟩

theorem writeJson_succeeds (path : Path) (tree : Tree) (w w' : World) (u : Unit)
    (h : (writeJson path tree : Attempt (StateM World) Unit).Succeeds w u w') :
    w'.files.read path = .ok tree.prettyText.toUTF8 ∧
      ∀ place, place ≠ w.files.named path → w.Spares w' place := by
  rcases writeJson_ends path tree w w' (.ok u) h with ⟨-, hread, hspares⟩ | ⟨e, he, -⟩
  · exact ⟨hread, hspares⟩
  · cases he

/-- A dump is looked for, and nothing is changed. -/
theorem readDump_ends (path : Path) (w w' : World) (r : Except Failure Dump)
    (h : (readDump path : Attempt (StateM World) Dump).Ends w r w') : w' = w := by
  have hsame : Preserves (· = w) (readDump path : Attempt (StateM World) Dump) :=
    preserves_readDump (fun _ _ ht => ht) (fun _ _ ht => ht) path
  exact (congrArg Prod.snd h).symm.trans (hsame w rfl)

namespace Dump

def datasetTree (dump : Dump) (now : Timestamp) : Tree := (Dataset.ofCards now dump.cards).toTree

/-- An entry for each card. -/
def manifest (dump : Dump) : List ManifestEntry :=
  dump.cards.map fun c => ⟨c.id, c.name, c.assets.remote, c.assets.localPath⟩

def manifestTree (dump : Dump) : Tree := Tree.list ManifestEntry.toTree dump.manifest

end Dump

/-- The ways in which a transform ends: without a dump, with the dataset not written, with the manifest not written
behind it, or with both. -/
theorem transform_cases {σ : Type} [Disk (StateM σ)] [Clock (StateM σ)] {raw dataset manifest : Path} {s s' : σ}
    {r : Except Failure TransformSummary}
    (h : (transform raw dataset manifest : Attempt (StateM σ) TransformSummary).Ends s r s') :
    (∃ f, r = .error f ∧ (readDump raw : Attempt (StateM σ) Dump).Ends s (.error f) s') ∨
    ∃ dump t now t', (readDump raw : Attempt (StateM σ) Dump).Succeeds s dump t ∧
      Id.run ((Clock.now : StateM σ Timestamp).run t) = (now, t') ∧
      ((∃ f, r = .error f ∧
        (writeJson dataset (dump.datasetTree now) : Attempt (StateM σ) Unit).Ends t' (.error f) s') ∨
      ∃ u, (writeJson dataset (dump.datasetTree now) : Attempt (StateM σ) Unit).Succeeds t' () u ∧
        ((∃ f, r = .error f ∧
          (writeJson manifest dump.manifestTree : Attempt (StateM σ) Unit).Ends u (.error f) s') ∨
        (writeJson manifest dump.manifestTree : Attempt (StateM σ) Unit).Succeeds u () s' ∧
          r = .ok ⟨dump.cards.length, (dump.manifest.filter (·.remote.isSome)).length, dataset, manifest⟩)) := by
  rcases (Attempt.ends_bind _ _ _ _ _).1 h with ⟨dump, t, hread, hwrite⟩ | ⟨f, hread, rfl⟩
  · right
    simp only [Attempt.ends_bind, Attempt.ends_lift, Attempt.ends_pure] at hwrite
    rcases hwrite with ⟨_, t', ⟨now, hnow, hsame⟩, hwrite⟩ | ⟨f, ⟨_, -, hnone⟩, -⟩
    · obtain rfl := Except.ok.inj hsame
      refine ⟨dump, t, _, t', hread, hnow, ?_⟩
      rcases hwrite with ⟨_, u, hdataset, hwrite⟩ | ⟨f, hdataset, rfl⟩
      · refine .inr ⟨u, hdataset, ?_⟩
        rcases hwrite with ⟨_, _, hmanifest, rfl, rfl⟩ | ⟨f, hmanifest, rfl⟩
        · exact .inr ⟨hmanifest, rfl⟩
        · exact .inl ⟨f, rfl, hmanifest⟩
      · exact .inl ⟨f, rfl, hdataset⟩
    · cases hnone
  · exact .inl ⟨f, rfl, hread⟩

/-- In a world a transform that ends well has read the dump of the raw file and written both files behind it. -/
theorem written_of_transform {raw dataset manifest : Path} {w w' : World} {summary : TransformSummary}
    (h : (transform raw dataset manifest : Attempt (StateM World) TransformSummary).Succeeds w summary w') :
    ∃ text dump t, (w.files.read raw).bind FileSystem.decode = .ok text ∧ Dump.ofText text = .ok dump ∧
      (writeJson dataset (dump.datasetTree w.now) : Attempt (StateM World) Unit).Succeeds w () t ∧
      (writeJson manifest dump.manifestTree : Attempt (StateM World) Unit).Succeeds t () w' ∧
      summary = ⟨dump.cards.length, (dump.manifest.filter (·.remote.isSome)).length, dataset, manifest⟩ := by
  rcases transform_cases h with ⟨f, hf, -⟩ | ⟨dump, t, now, t', hread, hnow, hends⟩
  · cases hf
  obtain ⟨⟨text, htext, hdump⟩, rfl⟩ := readDump_succeeds raw w t dump hread
  obtain ⟨rfl, rfl⟩ := Prod.mk.inj hnow
  rcases hends with ⟨f, hf, -⟩ | ⟨u, hdataset, ⟨f, hf, -⟩ | ⟨hmanifest, hsummary⟩⟩
  · cases hf
  · cases hf
  · exact ⟨text, dump, u, htext, hdump, hdataset, hmanifest, Except.ok.inj hsummary⟩

/-- Of two files that were written one after the other, each is read as its own tree. -/
theorem writeJson_both {dataset manifest : Path} {one other : Tree} {w t w' : World}
    (hne : w.files.named dataset ≠ w.files.named manifest)
    (hdataset : (writeJson dataset one : Attempt (StateM World) Unit).Succeeds w () t)
    (hmanifest : (writeJson manifest other : Attempt (StateM World) Unit).Succeeds t () w') :
    w'.files.read dataset = .ok one.prettyText.toUTF8 ∧ w'.files.read manifest = .ok other.prettyText.toUTF8 ∧
      ∀ place, place ≠ w.files.named dataset → place ≠ w.files.named manifest → w.Spares w' place := by
  obtain ⟨hfile, hspares⟩ := writeJson_succeeds dataset one w t () hdataset
  obtain ⟨hfile', hspares'⟩ := writeJson_succeeds manifest other t w' () hmanifest
  have hnamed (path : Path) : t.files.named path = w.files.named path :=
    (hspares (w.files.named manifest) hne.symm).files.named path
  refine ⟨?_, hfile', fun place hplace hplace' => ?_⟩
  · have hkept := hspares' (t.files.named dataset) (by rw [hnamed, hnamed]; exact hne)
    exact hkept.files.read hfile
  · exact (hspares place hplace).trans (hspares' place (by rw [hnamed]; exact hplace'))

/-- After a dump was turned into a dataset, the dataset's file holds it, though the manifest was written later.
No file but the two is touched. -/
theorem transform_succeeds (raw dataset manifest : Path) (w w' : World) (text : String) (dump : Dump)
    (summary : TransformSummary) (hraw : (w.files.read raw).bind FileSystem.decode = .ok text)
    (hdump : Dump.ofText text = .ok dump) (hne : w.files.named dataset ≠ w.files.named manifest)
    (h : (transform raw dataset manifest : Attempt (StateM World) TransformSummary).Succeeds w summary w') :
    w'.files.read dataset = .ok (Dataset.ofCards w.now dump.cards).toTree.prettyText.toUTF8 ∧
      ∀ place, place ≠ w.files.named dataset → place ≠ w.files.named manifest → w.Spares w' place := by
  obtain ⟨text', found, t, hread, hparsed, hdataset, hmanifest, -⟩ := written_of_transform h
  obtain rfl : text = text' := Except.ok.inj (hraw.symm.trans hread)
  obtain rfl : dump = found := Except.ok.inj (hdump.symm.trans hparsed)
  obtain ⟨hfile, -, hspares⟩ := writeJson_both hne hdataset hmanifest
  exact ⟨hfile, hspares⟩

/-- What writing files at these paths may leave: the files, and directories on the way to them. -/
def FileSystem.Reached (fs : FileSystem) (paths : List Path) (place : Place) (node : Node) : Prop :=
  ∃ path ∈ paths, fs.Passes path place ∧ (node = .directory ∨ place = fs.named path)

/-- Of a world only files have changed, and of them what lies on the way of the paths. -/
structure World.Reaches (w w' : World) (paths : List Path) : Prop where
  files : w.files.Alters w'.files (w.files.Reached paths)
  environment : w'.environment = w.environment

theorem World.Reaches.refl (w : World) (paths : List Path) : w.Reaches w paths := ⟨.refl _ _, rfl⟩

theorem preserves_writeJson {w : World} {paths : List Path} {path : Path} (hpath : path ∈ paths) (tree : Tree) :
    Preserves (fun w' => w.Reaches w' paths) (writeJson path tree : Attempt (StateM World) Unit) := by
  have hwrite : Preserves (fun w' => w.Reaches w' paths)
      (Attempt.io (Disk.write path tree.prettyText.toUTF8 : StateM World (Except IoError Unit))) := by
    refine preserves_io fun t ht => ?_
    cases hrun : Id.run ((Disk.write path tree.prettyText.toUTF8 : StateM World (Except IoError Unit)).run t) with
    | mk result t' =>
      cases result with
      | error e =>
        obtain rfl := World.run_write_error hrun
        exact ht
      | ok u =>
        obtain ⟨files, hfiles, rfl⟩ := World.run_write hrun
        have hwritten := FileSystem.alters_write hfiles
        refine ⟨ht.files.trans (hwritten.mono fun place node hnode => ?_), ht.environment⟩
        rw [ht.files.spares_root.named] at hnode
        exact ⟨path, hpath, hnode.1 ▸ w.files.passes_named path, .inr hnode.1⟩
  have hmake (parent : Path) (hparent : path.parent? = some parent) : Preserves (fun w' => w.Reaches w' paths)
      (Attempt.io (Disk.makeDirectories parent : StateM World (Except IoError Unit))) := by
    refine preserves_io fun t ht => ?_
    have hmade := FileSystem.alters_makeDirectories parent t.files
    refine ⟨ht.files.trans (hmade.mono fun place node hnode => ?_), ht.environment⟩
    have hpasses := hnode.1.of_workingDirectory ht.files.workingDirectory
    exact ⟨path, hpath, hpasses.of_parent hparent, .inl hnode.2⟩
  unfold writeJson
  split
  · rename_i parent hparent
    split
    · exact (hmake parent hparent).bind fun _ => hwrite
    · exact hwrite
  · exact hwrite

/-- However a transform ends, it has written at its two paths and nowhere else. -/
theorem transform_reaches (raw dataset manifest : Path) (w : World) :
    w.Reaches (Id.run ((transform raw dataset manifest : Attempt (StateM World) TransformSummary).run.run w)).2
      [dataset, manifest] := by
  have hread : Preserves (fun w' => w.Reaches w' [dataset, manifest]) (readDump raw : Attempt (StateM World) Dump) :=
    fun t ht => (readDump_ends raw t _ _ rfl).symm ▸ ht
  have hpreserves : Preserves (fun w' => w.Reaches w' [dataset, manifest])
      (transform raw dataset manifest : Attempt (StateM World) TransformSummary) := by
    refine hread.bind fun dump => (preserves_lift fun _ ht => ht).bind fun now => ?_
    refine (preserves_writeJson (by simp) _).bind fun _ => ?_
    exact (preserves_writeJson (by simp) _).bind fun _ => preserves_pure _
  exact hpreserves w (World.Reaches.refl w _)

end CardIndex
