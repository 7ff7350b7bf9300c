import CardIndex.Proofs.Disk.Tree
import CardIndex.Proofs.Preservation
import CardIndex.Proofs.World

namespace CardIndex

section

variable {σ : Type} [Disk (StateM σ)] [Clock (StateM σ)] [ImageSource (StateM σ)]

/-- A state has files in it, on which its disk works and which its clock and its source of images leave alone. A write is
made whole or changes nothing. What the source answers may depend on anything. -/
structure WorksOn (files : σ → FileSystem) : Prop where
  holds : ∀ path s, files (Id.run ((Disk.holds path : StateM σ Bool).run s)).2 = files s
  makeDirectories : ∀ path s, files (Id.run ((Disk.makeDirectories path : StateM σ (Except IoError Unit)).run s)).2 =
    (FileSystem.makeDirectories path (files s)).2
  write : ∀ path content s, files (Id.run ((Disk.write path content : StateM σ (Except IoError Unit)).run s)).2 =
    (FileSystem.change (·.write path content) (files s)).2
  pause : ∀ d s, files (Id.run ((Clock.pause d : StateM σ Unit).run s)).2 = files s
  fetch : ∀ url s, files (Id.run ((ImageSource.fetch url : StateM σ Reply).run s)).2 = files s

/-- The disk also answers what it does to the files, and nothing happens when it is only asked. -/
structure Reflects (files : σ → FileSystem) : Prop extends WorksOn files where
  held : ∀ path s, Id.run ((Disk.holds path : StateM σ Bool).run s) = ((files s).holds path, s)
  made : ∀ path s, (Id.run ((Disk.makeDirectories path : StateM σ (Except IoError Unit)).run s)).1 =
    (FileSystem.makeDirectories path (files s)).1
  wrote : ∀ path content s, (Id.run ((Disk.write path content : StateM σ (Except IoError Unit)).run s)).1 =
    (FileSystem.change (·.write path content) (files s)).1

end

theorem World.reflects_files : Reflects World.files where
  holds _ _ := rfl
  makeDirectories _ _ := rfl
  write _ _ _ := rfl
  pause _ _ := rfl
  fetch _ _ := rfl
  held _ _ := rfl
  made _ _ := rfl
  wrote _ _ _ := rfl

namespace ImageFetcher

open Attempt

/-- What becomes of an entry that does not end the run. -/
inductive Fate
  | unavailable
  | present
  | failed
  | saved (image : ByteArray)

namespace Fate

/-- The report with one more entry. -/
def count (report : FetchReport) : Fate → FetchReport
  | unavailable => { report with missingRemote := report.missingRemote + 1 }
  | present => { report with skipped := report.skipped + 1 }
  | failed => { report with failed := report.failed + 1 }
  | saved _ => { report with downloaded := report.downloaded + 1 }

/-- The report about some entries and those before. -/
def tally (report : FetchReport) (fates : List Fate) : FetchReport := fates.foldl count report

end Fate

section

variable {fs fs' : FileSystem} {path : Path} {image : ByteArray}

/-- The files with the directories in which a path is to lead to a file, as far as they can be made. -/
def prepared (fs : FileSystem) (path : Path) : FileSystem :=
  match path.parent? with
  | some parent => (FileSystem.makeDirectories parent fs).2
  | none => fs

theorem prepared_of_some {parent : Path} (h : path.parent? = some parent) :
    prepared fs path = (FileSystem.makeDirectories parent fs).2 := by
  rw [prepared, h]

theorem prepared_of_none (h : path.parent? = none) : prepared fs path = fs := by
  rw [prepared, h]

theorem alters_prepared (fs : FileSystem) (path : Path) :
    fs.Alters (prepared fs path) fun place node =>
      (∃ parent, path.parent? = some parent ∧ fs.Passes parent place) ∧ node = .directory := by
  cases hparent : path.parent? with
  | none =>
    rw [prepared_of_none hparent]
    exact .refl _ _
  | some parent =>
    rw [prepared_of_some hparent]
    refine (FileSystem.alters_makeDirectories parent fs).mono fun place node hnode => ?_
    exact ⟨⟨parent, rfl, hnode.1⟩, hnode.2⟩

/-- Directories are made for an image where nothing was. -/
theorem find?_prepared {place : Place} {node : Node} (h : fs.find? place = some node) :
    (prepared fs path).find? place = some node := by
  rcases (alters_prepared fs path).found place with hsame | ⟨made, -, ⟨-, rfl⟩, hnone | ⟨_, _, -, hfile⟩⟩
  · exact hsame.trans h
  · rw [h] at hnone
    cases hnone
  · cases hfile

theorem isTree_prepared (h : fs.IsTree) (path : Path) : (prepared fs path).IsTree := by
  cases hparent : path.parent? with
  | none => rwa [prepared_of_none hparent]
  | some parent =>
    rw [prepared_of_some hparent]
    exact h.makeDirectories parent

theorem write_of_writeAsset (h : (writeAsset path image : Attempt (StateM FileSystem) Unit).Succeeds fs () fs') :
    (prepared fs path).write path image = .ok fs' := by
  unfold writeAsset at h
  cases hparent : path.parent? with
  | none =>
    rw [hparent] at h
    rw [prepared_of_none hparent]
    exact (fs.run_write_ok path image fs' ()).1 ((succeeds_io _ _ _ _).1 h)
  | some parent =>
    rw [hparent] at h
    obtain ⟨_, made, hmade, hwrite⟩ := (succeeds_bind _ _ _ _ _).1 h
    have hprepared : (FileSystem.makeDirectories parent fs).2 = made :=
      congrArg Prod.snd ((succeeds_io _ _ _ _).1 hmade)
    rw [prepared_of_some hparent, hprepared]
    exact (made.run_write_ok path image fs' ()).1 ((succeeds_io _ _ _ _).1 hwrite)

/-- An image that cannot be saved leaves no more than directories behind. -/
theorem prepared_of_writeAsset {failure : Failure}
    (h : (writeAsset path image : Attempt (StateM FileSystem) Unit).Ends fs (.error failure) fs') :
    fs' = prepared fs path ∧ ∃ e, failure = .io e := by
  have hfailed (t : FileSystem)
      (hwrite : (Attempt.io (Disk.write path image : StateM FileSystem _)).Ends t (.error failure) fs') :
      fs' = t ∧ ∃ e, failure = .io e := by
    obtain ⟨e, herror, hfailure⟩ := (ends_io_error _ _ _ _).1 hwrite
    exact ⟨((t.run_write_error path image fs' e).1 herror).2, e, hfailure⟩
  unfold writeAsset at h
  cases hparent : path.parent? with
  | none =>
    rw [hparent] at h
    rw [prepared_of_none hparent]
    exact hfailed fs h
  | some parent =>
    rw [hparent, ends_bind] at h
    rcases h with ⟨_, made, hmade, hwrite⟩ | ⟨failure', hmade, hfailure⟩
    · have hprepared : (FileSystem.makeDirectories parent fs).2 = made :=
        congrArg Prod.snd ((succeeds_io _ _ _ _).1 hmade)
      rw [prepared_of_some hparent, hprepared]
      exact hfailed made hwrite
    · obtain ⟨e, herror, rfl⟩ := (ends_io_error _ _ _ _).1 hmade
      obtain rfl := Except.error.inj hfailure
      rw [prepared_of_some hparent]
      exact ⟨(congrArg Prod.snd herror).symm, e, rfl⟩

end

section

variable {σ : Type} [Disk (StateM σ)] [Clock (StateM σ)] [ImageSource (StateM σ)] {files : σ → FileSystem}

omit [Clock (StateM σ)] [ImageSource (StateM σ)] in
/-- What making directories and writing the image keep, saving it keeps. -/
theorem preserves_writeAsset {inv : σ → Prop} {path : Path} {image : ByteArray}
    (hmake : ∀ parent s, path.parent? = some parent → inv s →
      inv (Id.run ((Disk.makeDirectories parent : StateM σ (Except IoError Unit)).run s)).2)
    (hwrite : ∀ s, inv s → inv (Id.run ((Disk.write path image : StateM σ (Except IoError Unit)).run s)).2) :
    Preserves inv (writeAsset path image) := by
  unfold writeAsset
  cases hparent : path.parent? with
  | none => exact preserves_io hwrite
  | some parent => exact (preserves_io fun s => hmake parent s hparent).bind fun _ => preserves_io hwrite

/-- The state after a request. -/
def asked (url : String) (s : σ) : σ := (Id.run ((ImageSource.fetch url : StateM σ Reply).run s)).2

/-- What the source answers to a request. -/
def answer (url : String) (s : σ) : Reply := (Id.run ((ImageSource.fetch url : StateM σ Reply).run s)).1

/-- The state after the pause behind a request. -/
def rested (f : ImageFetcher) (s : σ) : σ :=
  if f.delay.isZero then s else (Id.run ((Clock.pause f.delay : StateM σ Unit).run s)).2

/-- An entry meets its fate in a state and leaves another. -/
inductive Meets (files : σ → FileSystem) (f : ImageFetcher) (entry : ManifestEntry) (s : σ) : Fate → σ → Prop
  | unavailable (remote : entry.remote = none) : Meets files f entry s .unavailable s
  | present {url} (remote : entry.remote = some url) (held : (files s).holds (f.target entry) = true) :
      Meets files f entry s .present s
  | failed {url} (remote : entry.remote = some url) (missing : (files s).holds (f.target entry) = false)
      (reply : ∀ image, answer url s ≠ .served image) : Meets files f entry s .failed (f.rested (asked url s))
  | saved {url image t} (remote : entry.remote = some url) (missing : (files s).holds (f.target entry) = false)
      (reply : answer url s = .served image)
      (written : (writeAsset (f.target entry) image : Attempt (StateM σ) Unit).Succeeds (asked url s) () t) :
      Meets files f entry s (.saved image) (f.rested t)

/-- An image was served for an entry and could not be saved. -/
structure Thwarted (files : σ → FileSystem) (f : ImageFetcher) (entry : ManifestEntry) (s : σ) (failure : Failure)
    (s' : σ) : Prop where
  missing : (files s).holds (f.target entry) = false
  unwritten : ∃ url image, entry.remote = some url ∧ answer url s = .served image ∧
    (writeAsset (f.target entry) image : Attempt (StateM FileSystem) Unit).Ends (files s) (.error failure) (files s')

theorem files_asked (hfiles : WorksOn files) (url : String) (s : σ) : files (asked url s) = files s := hfiles.fetch url s

theorem files_rested (hfiles : WorksOn files) (f : ImageFetcher) (s : σ) : files (f.rested s) = files s := by
  unfold rested
  split
  · rfl
  · exact hfiles.pause f.delay s

/-- An image is saved in a state as it is in the state's files. -/
theorem run_writeAsset (hfiles : Reflects files) (path : Path) (image : ByteArray) (s : σ) :
    Id.run ((writeAsset path image : Attempt (StateM FileSystem) Unit).run.run (files s)) =
      ((Id.run ((writeAsset path image : Attempt (StateM σ) Unit).run.run s)).1,
        files (Id.run ((writeAsset path image : Attempt (StateM σ) Unit).run.run s)).2) := by
  have hwrite (t : σ) : Id.run ((Attempt.io (Disk.write path image) :
      Attempt (StateM FileSystem) Unit).run.run (files t)) =
      ((Id.run ((Attempt.io (Disk.write path image) : Attempt (StateM σ) Unit).run.run t)).1,
        files (Id.run ((Attempt.io (Disk.write path image) : Attempt (StateM σ) Unit).run.run t)).2) := by
    rw [run_operation, run_operation]
    exact Prod.ext (congrArg (Except.mapError Failure.io) (hfiles.wrote path image t).symm) (hfiles.write path image t).symm
  unfold writeAsset
  cases path.parent? with
  | none => exact hwrite s
  | some parent =>
    have hmake : Id.run ((Disk.makeDirectories parent : StateM FileSystem (Except IoError Unit)).run (files s)) =
        ((Id.run ((Disk.makeDirectories parent : StateM σ (Except IoError Unit)).run s)).1,
          files (Id.run ((Disk.makeDirectories parent : StateM σ (Except IoError Unit)).run s)).2) :=
      Prod.ext (hfiles.made parent s).symm (hfiles.makeDirectories parent s).symm
    rw [run_bind, run_bind, run_operation, run_operation, hmake]
    rcases Id.run ((Disk.makeDirectories parent : StateM σ (Except IoError Unit)).run s) with ⟨e | u, t⟩
    · rfl
    · exact hwrite t

/-- What can be saved in the files of a state can be saved in the state. -/
theorem exists_writeAsset (hfiles : Reflects files) {path : Path} {image : ByteArray} (s : σ) {fs : FileSystem}
    (h : (writeAsset path image : Attempt (StateM FileSystem) Unit).Succeeds (files s) () fs) :
    ∃ t, (writeAsset path image : Attempt (StateM σ) Unit).Succeeds s () t ∧ files t = fs := by
  have hrun := (run_writeAsset hfiles path image s).symm.trans h
  obtain ⟨hresult, hfs⟩ := Prod.mk.inj hrun
  exact ⟨_, Prod.ext hresult rfl, hfs⟩

theorem ends_writeAsset (hfiles : Reflects files) {path : Path} {image : ByteArray} {s s' : σ} {r : Except Failure Unit}
    (h : (writeAsset path image : Attempt (StateM σ) Unit).Ends s r s') :
    (writeAsset path image : Attempt (StateM FileSystem) Unit).Ends (files s) r (files s') := by
  have hrun := run_writeAsset hfiles path image s
  rw [h] at hrun
  exact hrun

omit [Disk (StateM σ)] [ImageSource (StateM σ)] in
theorem run_rest (f : ImageFetcher) (report : FetchReport) (s : σ) :
    Id.run ((if f.delay.isZero then pure report else do
      liftM (Clock.pause f.delay : StateM σ Unit)
      pure report : Attempt (StateM σ) FetchReport).run.run s) = (.ok report, f.rested s) := by
  unfold rested
  split <;> rfl

theorem run_request (f : ImageFetcher) (report : FetchReport) (entry : ManifestEntry) (url : String) (s : σ) :
    Id.run ((f.request entry url report : Attempt (StateM σ) FetchReport).run.run s) =
      match answer url s with
      | .served image =>
        match Id.run ((writeAsset (f.target entry) image : Attempt (StateM σ) Unit).run.run (asked url s)) with
        | (.ok (), t) => (.ok (Fate.count report (.saved image)), f.rested t)
        | (.error e, t) => (.error e, t)
      | _ => (.ok (Fate.count report .failed), f.rested (asked url s)) := by
  have hfetch : Id.run ((liftM (ImageSource.fetch url : StateM σ Reply) : Attempt (StateM σ) Reply).run.run s) =
      (.ok (answer url s), asked url s) := rfl
  unfold request
  rw [run_bind, hfetch]
  dsimp only
  cases answer url s with
  | refused => exact f.run_rest _ _
  | failed => exact f.run_rest _ _
  | served image =>
    dsimp only
    rw [run_bind]
    rcases Id.run ((writeAsset (f.target entry) image : Attempt (StateM σ) Unit).run.run (asked url s)) with ⟨e | u, t⟩
    · rfl
    · exact f.run_rest _ _

theorem run_fetchEntry (hfiles : Reflects files) (f : ImageFetcher) (report : FetchReport) (entry : ManifestEntry)
    (s : σ) : Id.run ((f.fetchEntry report entry : Attempt (StateM σ) FetchReport).run.run s) =
      match entry.remote with
      | none => (.ok (Fate.count report .unavailable), s)
      | some url =>
        if (files s).holds (f.target entry) then (.ok (Fate.count report .present), s)
        else Id.run ((f.request entry url report : Attempt (StateM σ) FetchReport).run.run s) := by
  unfold fetchEntry
  cases entry.remote with
  | none => rfl
  | some url =>
    have hholds : Id.run ((liftM (Disk.holds (f.target entry) : StateM σ Bool) :
        Attempt (StateM σ) Bool).run.run s) = (.ok ((files s).holds (f.target entry)), s) :=
      congrArg (fun run => (Except.ok run.1, run.2)) (hfiles.held (f.target entry) s)
    dsimp only
    rw [run_bind, hholds]
    dsimp only
    split
    · rfl
    · rfl

/-- An entry that meets its fate is counted by it. -/
theorem succeeds_fetchEntry (hfiles : Reflects files) (f : ImageFetcher) (report : FetchReport) (entry : ManifestEntry)
    (s : σ) (report' : FetchReport) (s' : σ) :
    Succeeds (f.fetchEntry report entry) s report' s' ↔
      ∃ fate, Meets files f entry s fate s' ∧ report' = Fate.count report fate := by
  unfold Succeeds
  rw [run_fetchEntry hfiles]
  constructor
  · intro h
    cases hremote : entry.remote with
    | none =>
      rw [hremote] at h
      cases h
      exact ⟨.unavailable, .unavailable hremote, rfl⟩
    | some url =>
      simp only [hremote] at h
      split at h
      · rename_i hheld
        cases h
        exact ⟨.present, .present hremote hheld, rfl⟩
      · rename_i hmissing
        rw [Bool.not_eq_true] at hmissing
        rw [run_request] at h
        split at h
        · rename_i image hreply
          split at h
          · rename_i t hwritten
            cases h
            exact ⟨.saved image, .saved hremote hmissing hreply hwritten, rfl⟩
          · cases h
        · rename_i hreply
          cases h
          exact ⟨.failed, .failed hremote hmissing hreply, rfl⟩
  · rintro ⟨fate, hmeets, rfl⟩
    cases hmeets with
    | unavailable hremote => simp only [hremote]
    | present hremote hheld => simp only [hremote, hheld, if_true]
    | failed hremote hmissing hreply =>
      simp only [hremote, hmissing, Bool.false_eq_true, if_false, run_request]
    | saved hremote hmissing hreply hwritten =>
      unfold Succeeds at hwritten
      simp only [hremote, hmissing, Bool.false_eq_true, if_false, run_request, hreply, hwritten]

/-- Nothing but an image that was served and cannot be saved ends a run, and then it ends where saving it did. -/
theorem stopped_of_fetchEntry (hfiles : Reflects files) {f : ImageFetcher} {report : FetchReport} {entry : ManifestEntry}
    {failure : Failure} {s s' : σ} (h : Ends (f.fetchEntry report entry) s (.error failure) s') :
    Thwarted files f entry s failure s' ∧ ∃ url image, entry.remote = some url ∧
      (writeAsset (f.target entry) image : Attempt (StateM σ) Unit).Ends (asked url s) (.error failure) s' := by
  unfold Ends at h
  rw [run_fetchEntry hfiles] at h
  split at h
  · cases h
  · rename_i url hremote
    split at h
    · cases h
    · rename_i hmissing
      rw [Bool.not_eq_true] at hmissing
      rw [run_request] at h
      split at h
      · rename_i image hreply
        split at h
        · cases h
        · rename_i e t hunwritten
          cases h
          have hends := ends_writeAsset hfiles hunwritten
          rw [files_asked hfiles.toWorksOn] at hends
          exact ⟨⟨hmissing, url, image, hremote, hreply, hends⟩, url, image, hremote, hunwritten⟩
      · cases h

/-- Entries meet their fates one after the other. -/
inductive Tour (files : σ → FileSystem) (f : ImageFetcher) : σ → List (ManifestEntry × Fate) → σ → Prop
  | nil (s) : Tour files f s [] s
  | cons {s s' s'' entry fate rest} (first : Meets files f entry s fate s') (others : Tour files f s' rest s'') :
      Tour files f s ((entry, fate) :: rest) s''

theorem Tour.foldlM (hfiles : Reflects files) {f : ImageFetcher} {s s' : σ} {stops : List (ManifestEntry × Fate)}
    (h : Tour files f s stops s') (report : FetchReport) :
    Succeeds ((stops.map Prod.fst).foldlM f.fetchEntry report) s (Fate.tally report (stops.map Prod.snd)) s' := by
  induction h generalizing report with
  | nil s => simp [Fate.tally]
  | cons first others ih =>
    rw [List.map_cons, List.foldlM_cons, succeeds_bind]
    exact ⟨_, _, (succeeds_fetchEntry hfiles f report _ _ _ _).2 ⟨_, first, rfl⟩, ih _⟩

/-- A run that ends well has been to all entries. -/
theorem tour_of_foldlM (hfiles : Reflects files) (f : ImageFetcher) (manifest : List ManifestEntry)
    (report report' : FetchReport) (s s' : σ) (h : Succeeds (manifest.foldlM f.fetchEntry report) s report' s') :
    ∃ stops, stops.map Prod.fst = manifest ∧ Tour files f s stops s' ∧
      report' = Fate.tally report (stops.map Prod.snd) := by
  induction manifest generalizing report s with
  | nil =>
    rw [List.foldlM_nil, succeeds_pure] at h
    obtain ⟨rfl, rfl⟩ := h
    exact ⟨[], rfl, .nil s, rfl⟩
  | cons entry manifest ih =>
    rw [List.foldlM_cons, succeeds_bind] at h
    obtain ⟨counted, mid, hfirst, hothers⟩ := h
    obtain ⟨fate, hmeets, rfl⟩ := (succeeds_fetchEntry hfiles f report entry s counted mid).1 hfirst
    obtain ⟨stops, rfl, htour, rfl⟩ := ih _ mid hothers
    exact ⟨(entry, fate) :: stops, rfl, .cons hmeets htour, rfl⟩

/-- A run that fails has been to all entries before one whose image cannot be saved. -/
theorem thwarted_of_foldlM (hfiles : Reflects files) (f : ImageFetcher) (manifest : List ManifestEntry)
    (report : FetchReport) (s s' : σ) (failure : Failure)
    (h : Ends (manifest.foldlM f.fetchEntry report) s (.error failure) s') :
    ∃ stops entry rest mid, manifest = stops.map Prod.fst ++ entry :: rest ∧ Tour files f s stops mid ∧
      Thwarted files f entry mid failure s' := by
  obtain ⟨before, entry, rest, counted, mid, rfl, hbefore, hstopped⟩ := stopped_of_foldlM manifest report s s' failure h
  obtain ⟨stops, rfl, htour, -⟩ := tour_of_foldlM hfiles f before report counted s mid hbefore
  exact ⟨stops, entry, rest, mid, rfl, htour, (stopped_of_fetchEntry hfiles hstopped).1⟩

variable {f : ImageFetcher} {entry : ManifestEntry} {s s' : σ} {fate : Fate} {stops : List (ManifestEntry × Fate)}

/-- An image was saved by its path, in directories made for it. -/
theorem written_of_saved (hfiles : Reflects files) {url : String} {image : ByteArray} {t : σ}
    (h : (writeAsset (f.target entry) image : Attempt (StateM σ) Unit).Succeeds (asked url s) () t) :
    (prepared (files s) (f.target entry)).write (f.target entry) image = .ok (files (f.rested t)) := by
  have hwritten := ends_writeAsset hfiles h
  rw [files_asked hfiles.toWorksOn] at hwritten
  rw [files_rested hfiles.toWorksOn]
  exact write_of_writeAsset hwritten

/-- No directory is taken away and nothing is left without what was there. -/
theorem Meets.alters (hfiles : Reflects files) (h : Meets files f entry s fate s') :
    (files s).Alters (files s') fun _ _ => True := by
  cases h with
  | unavailable => exact .refl _ _
  | present => exact .refl _ _
  | failed =>
    rw [files_rested hfiles.toWorksOn, files_asked hfiles.toWorksOn]
    exact .refl _ _
  | saved hremote hmissing hreply hwritten =>
    have hprepared := (alters_prepared (files s) (f.target entry)).mono fun _ _ _ => trivial
    exact hprepared.trans ((FileSystem.alters_write (written_of_saved hfiles hwritten)).mono fun _ _ _ => trivial)

theorem Tour.alters (hfiles : Reflects files) (h : Tour files f s stops s') :
    (files s).Alters (files s') fun _ _ => True := by
  induction h with
  | nil s => exact .refl _ _
  | cons first others ih => exact (first.alters hfiles).trans ih

end

section

variable {f : ImageFetcher} {entry : ManifestEntry} {w w' : World} {fate : Fate} {stops : List (ManifestEntry × Fate)}

theorem answer_world (url : String) (w : World) : answer url w = w.images url := rfl

theorem images_rested (f : ImageFetcher) (w : World) : (f.rested w).images = w.images := by
  unfold rested
  split <;> rfl

/-- In a world the same images are served all the time. -/
theorem Meets.images (h : Meets World.files f entry w fate w') : w'.images = w.images := by
  cases h with
  | unavailable => rfl
  | present => rfl
  | failed => exact images_rested f _
  | @saved url image t _ _ _ hwritten =>
    have hpreserves : Preserves (fun t => t.images = w.images)
        (writeAsset (f.target entry) image : Attempt (StateM World) Unit) :=
      preserves_writeAsset (fun _ _ _ ht => ht) fun _ ht => ht
    have himages := hpreserves (asked url w) rfl
    rw [hwritten] at himages
    exact (images_rested f t).trans himages

theorem Tour.images (h : Tour World.files f w stops w') : w'.images = w.images := by
  induction h with
  | nil w => rfl
  | cons first others ih => exact ih.trans first.images

end

end ImageFetcher

end CardIndex
