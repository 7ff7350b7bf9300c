import CardIndex.Proofs.Images.Tour

namespace CardIndex.ImageFetcher

open Attempt

/-- The entries whose images were saved. -/
def savedOf (stops : List (ManifestEntry × Fate)) : List ManifestEntry :=
  stops.filterMap fun stop => match stop.2 with
    | .saved _ => some stop.1
    | _ => none

/-- What is new in the files are the images that were saved, each where nothing was, and directories. -/
structure Places (f : ImageFetcher) (fs : FileSystem) (stops : List (ManifestEntry × Fate)) (fs' : FileSystem) : Prop where
  workingDirectory : fs'.workingDirectory = fs.workingDirectory
  distinct : ((savedOf stops).map fun entry => fs.named (f.target entry)).Nodup
  created : ∀ entry image, (entry, .saved image) ∈ stops → fs.find? (fs.named (f.target entry)) = none ∧
    fs'.find? (fs.named (f.target entry)) = some (.file image)
  elsewhere : ∀ place, (∀ entry ∈ savedOf stops, place ≠ fs.named (f.target entry)) →
    fs'.find? place = fs.find? place ∨ fs.find? place = none ∧ fs'.find? place = some .directory

theorem mem_savedOf {stops : List (ManifestEntry × Fate)} {entry : ManifestEntry} :
    entry ∈ savedOf stops ↔ ∃ image, (entry, .saved image) ∈ stops := by
  unfold savedOf
  rw [List.mem_filterMap]
  constructor
  · rintro ⟨⟨met, fate⟩, hmem, hsaved⟩
    cases fate with
    | saved image =>
      obtain rfl := Option.some.inj hsaved
      exact ⟨image, hmem⟩
    | unavailable => cases hsaved
    | present => cases hsaved
    | failed => cases hsaved
  · rintro ⟨image, hmem⟩
    exact ⟨_, hmem, rfl⟩

namespace Places

variable {f : ImageFetcher} {fs fs' fs'' : FileSystem} {stops stops' : List (ManifestEntry × Fate)}

theorem of_same (f : ImageFetcher) (h : fs' = fs) (hnone : savedOf stops = []) : f.Places fs stops fs' where
  workingDirectory := by rw [h]
  distinct := by rw [hnone]; exact List.nodup_nil
  created entry image hmem := by
    have hsaved := mem_savedOf.2 ⟨image, hmem⟩
    rw [hnone] at hsaved
    cases hsaved
  elsewhere place _ := .inl (by rw [h])

theorem named (h : f.Places fs stops fs') (path : Path) : fs'.named path = fs.named path := by
  rw [FileSystem.named, FileSystem.named, FileSystem.start, FileSystem.start, h.workingDirectory]

/-- Nothing that was there is changed. -/
theorem kept (h : f.Places fs stops fs') {place : Place} {node : Node} (hfound : fs.find? place = some node) :
    fs'.find? place = some node := by
  have hother : ∀ entry ∈ savedOf stops, place ≠ fs.named (f.target entry) := by
    intro entry hentry hplace
    obtain ⟨image, hmem⟩ := mem_savedOf.1 hentry
    have hnone := (h.created entry image hmem).1
    rw [← hplace, hfound] at hnone
    cases hnone
  rcases h.elsewhere place hother with hsame | ⟨hnone, -⟩
  · exact hsame.trans hfound
  · rw [hfound] at hnone
    cases hnone

theorem trans (h : f.Places fs stops fs') (h' : f.Places fs' stops' fs'') : f.Places fs (stops ++ stops') fs'' := by
  have hnamed (entry : ManifestEntry) : fs'.named (f.target entry) = fs.named (f.target entry) := h.named _
  have hsaved : savedOf (stops ++ stops') = savedOf stops ++ savedOf stops' := List.filterMap_append
  -- no place is taken twice: what is saved first is there when the others are saved
  have hapart : ∀ first ∈ savedOf stops, ∀ second ∈ savedOf stops',
      fs.named (f.target first) ≠ fs.named (f.target second) := by
    intro first hfirst second hsecond hsame
    obtain ⟨image, hmem⟩ := mem_savedOf.1 hfirst
    obtain ⟨image', hmem'⟩ := mem_savedOf.1 hsecond
    have hfile := (h.created first image hmem).2
    have hnone := (h'.created second image' hmem').1
    rw [hnamed, ← hsame, hfile] at hnone
    cases hnone
  constructor
  · exact h'.workingDirectory.trans h.workingDirectory
  · have hdistinct := h'.distinct
    simp only [hnamed] at hdistinct
    rw [hsaved, List.map_append, List.nodup_append]
    refine ⟨h.distinct, hdistinct, fun first hfirst second hsecond => ?_⟩
    obtain ⟨entry, hentry, rfl⟩ := List.mem_map.1 hfirst
    obtain ⟨entry', hentry', rfl⟩ := List.mem_map.1 hsecond
    exact hapart entry hentry entry' hentry'
  · intro entry image hmem
    rcases List.mem_append.1 hmem with hfirst | hsecond
    · obtain ⟨hnone, hfile⟩ := h.created entry image hfirst
      exact ⟨hnone, h'.kept hfile⟩
    · obtain ⟨hnone, hfile⟩ := h'.created entry image hsecond
      rw [hnamed] at hnone hfile
      have hbefore : fs.find? (fs.named (f.target entry)) = none := by
        by_contra hfound
        obtain ⟨node, hnode⟩ := Option.ne_none_iff_exists'.1 hfound
        rw [h.kept hnode] at hnone
        cases hnone
      exact ⟨hbefore, hfile⟩
  · intro place hplace
    rw [hsaved] at hplace
    have hfirst := h.elsewhere place fun entry hentry => hplace entry (List.mem_append_left _ hentry)
    have hsecond := h'.elsewhere place fun entry hentry => by
      rw [hnamed]
      exact hplace entry (List.mem_append_right _ hentry)
    rcases hsecond with hsame | ⟨hnone, hmade⟩
    · rw [hsame]
      exact hfirst
    · rcases hfirst with hsame | ⟨-, hdirectory⟩
      · exact .inr ⟨hsame ▸ hnone, hmade⟩
      · rw [hnone] at hdirectory
        cases hdirectory

end Places

theorem savedOf_sublist (stops : List (ManifestEntry × Fate)) : (savedOf stops).Sublist (stops.map Prod.fst) := by
  induction stops with
  | nil => exact .slnil
  | cons stop stops ih =>
    obtain ⟨entry, fate⟩ := stop
    cases fate with
    | saved image => exact ih.cons_cons entry
    | unavailable => exact ih.cons entry
    | present => exact ih.cons entry
    | failed => exact ih.cons entry

theorem downloaded_tally (report : FetchReport) (stops : List (ManifestEntry × Fate)) :
    (Fate.tally report (stops.map Prod.snd)).downloaded = report.downloaded + (savedOf stops).length := by
  induction stops generalizing report with
  | nil => rfl
  | cons stop stops ih =>
    obtain ⟨entry, fate⟩ := stop
    have hrest := ih (Fate.count report fate)
    cases fate with
    | saved image =>
      have hlength : (savedOf ((entry, .saved image) :: stops)).length = (savedOf stops).length + 1 := rfl
      have hcount : (Fate.count report (.saved image)).downloaded = report.downloaded + 1 := rfl
      rw [hcount] at hrest
      rw [hlength]
      exact hrest.trans (by omega)
    | unavailable => exact hrest
    | present => exact hrest
    | failed => exact hrest

/-- Each entry is counted once. -/
theorem sum_tally (report : FetchReport) (fates : List Fate) :
    let total := Fate.tally report fates
    total.downloaded + total.skipped + total.missingRemote + total.failed =
      report.downloaded + report.skipped + report.missingRemote + report.failed + fates.length := by
  induction fates generalizing report with
  | nil => rfl
  | cons fate fates ih =>
    have hrest := ih (Fate.count report fate)
    have hcount : (Fate.count report fate).downloaded + (Fate.count report fate).skipped +
        (Fate.count report fate).missingRemote + (Fate.count report fate).failed =
        report.downloaded + report.skipped + report.missingRemote + report.failed + 1 := by
      cases fate <;> simp only [Fate.count] <;> omega
    rw [hcount] at hrest
    rw [List.length_cons]
    exact hrest.trans (by omega)

section

variable {σ : Type} [Disk (StateM σ)] [Clock (StateM σ)] [ImageSource (StateM σ)] {files : σ → FileSystem}
  {f : ImageFetcher} {s s' : σ}

theorem Meets.isTree (hfiles : Reflects files) {entry : ManifestEntry} {fate : Fate} (h : Meets files f entry s fate s')
    (htree : (files s).IsTree) : (files s').IsTree := by
  cases h with
  | unavailable => exact htree
  | present => exact htree
  | failed =>
    rw [files_rested hfiles.toWorksOn, files_asked hfiles.toWorksOn]
    exact htree
  | saved _ _ _ hwritten => exact (isTree_prepared htree _).write (written_of_saved hfiles hwritten)

theorem Tour.isTree (hfiles : Reflects files) {stops : List (ManifestEntry × Fate)} (h : Tour files f s stops s')
    (htree : (files s).IsTree) : (files s').IsTree := by
  induction h with
  | nil s => exact htree
  | cons first others ih => exact ih (first.isTree hfiles htree)

/-- An image is saved where nothing was: what a path that can lead to a file does not find is not there. -/
theorem Meets.places (hfiles : Reflects files) {entry : ManifestEntry} {fate : Fate} (h : Meets files f entry s fate s')
    (htree : (files s).IsTree) (hgrounded : (files s).Grounded (f.target entry)) :
    f.Places (files s) [(entry, fate)] (files s') := by
  cases h with
  | unavailable => exact .of_same f rfl rfl
  | present => exact .of_same f rfl rfl
  | failed => exact .of_same f ((files_rested hfiles.toWorksOn f _).trans (files_asked hfiles.toWorksOn _ s)) rfl
  | @saved url image t hremote hmissing hreply hwritten =>
    have hprepared := alters_prepared (files s) (f.target entry)
    obtain ⟨hlocate, hasks, hfree, hput⟩ := FileSystem.write_ok _ _ _ _ (written_of_saved hfiles hwritten)
    have hnamed : (prepared (files s) (f.target entry)).named (f.target entry) = (files s).named (f.target entry) :=
      hprepared.spares_root.named _
    rw [hnamed] at hlocate hfree hput
    have hne : f.target entry ≠ "" := by
      intro hempty
      rw [hempty] at hlocate
      cases hlocate
    have hnone := hgrounded.find?_of_missing htree hne hasks hmissing
    have hplace := FileSystem.ne_nil_of_find? hfree
    have hfind (place : Place) : (files (f.rested t)).find? place =
        if place = (files s).named (f.target entry) then some (.file image)
        else (prepared (files s) (f.target entry)).find? place := by
      rw [hput, FileSystem.find?_put _ _ _ _ hplace]
    constructor
    · exact (congrArg FileSystem.workingDirectory hput).trans hprepared.workingDirectory
    · simp [savedOf]
    · intro entry' image' hmem
      cases List.mem_singleton.1 hmem
      exact ⟨hnone, (hfind _).trans (if_pos rfl)⟩
    · intro place hother
      have hfound := (hfind place).trans (if_neg (hother entry (mem_savedOf.2 ⟨image, List.mem_singleton.2 rfl⟩)))
      rcases hprepared.found place with hsame | ⟨node, hnode, ⟨-, rfl⟩, hold⟩
      · exact .inl (hfound.trans hsame)
      · refine .inr ⟨?_, hfound.trans hnode⟩
        rcases hold with hold | ⟨_, _, -, hfile⟩
        · exact hold
        · cases hfile

theorem Tour.places (hfiles : Reflects files) {stops : List (ManifestEntry × Fate)} (h : Tour files f s stops s')
    (htree : (files s).IsTree) (hroot : (files s).Grounded f.assetRoot)
    (hpaths : ∀ entry ∈ stops.map Prod.fst, ".." ∉ Path.parts entry.localPath) :
    f.Places (files s) stops (files s') := by
  induction h with
  | nil s => exact .of_same f rfl rfl
  | cons first others ih =>
    rw [List.map_cons, List.forall_mem_cons] at hpaths
    have hfirst := first.places hfiles htree (hroot.join hpaths.1)
    exact hfirst.trans (ih (first.isTree hfiles htree) (hroot.spares (first.alters hfiles).spares_root) hpaths.2)

end

/-- What is new in the files are the images of some entries, each where nothing was, and directories. -/
structure Stores (f : ImageFetcher) (w : World) (saved : List ManifestEntry) (w' : World) : Prop where
  workingDirectory : w'.files.workingDirectory = w.files.workingDirectory
  images : w'.images = w.images
  distinct : (saved.map fun entry => w.files.named (f.target entry)).Nodup
  created : ∀ entry ∈ saved, w.files.find? (w.files.named (f.target entry)) = none ∧
    ∃ url image, entry.remote = some url ∧ w.images url = .served image ∧
      w'.files.find? (w.files.named (f.target entry)) = some (.file image)
  elsewhere : ∀ place, (∀ entry ∈ saved, place ≠ w.files.named (f.target entry)) →
    w'.files.find? place = w.files.find? place ∨
      w.files.find? place = none ∧ w'.files.find? place = some .directory

theorem Tour.served {f : ImageFetcher} {w w' : World} {stops : List (ManifestEntry × Fate)}
    (h : Tour World.files f w stops w') {entry : ManifestEntry} {image : ByteArray}
    (hmem : (entry, .saved image) ∈ stops) : ∃ url, entry.remote = some url ∧ w.images url = .served image := by
  induction h with
  | nil w => cases hmem
  | cons first others ih =>
    rcases List.mem_cons.1 hmem with hhead | htail
    · cases hhead
      cases first with
      | @saved url _ _ hremote _ hreply _ => exact ⟨url, hremote, hreply⟩
    · rw [← first.images]
      exact ih htail

/-- The images that a tour of a world saves are those that are served there. -/
theorem Tour.stores {f : ImageFetcher} {w w' : World} {stops : List (ManifestEntry × Fate)}
    (h : Tour World.files f w stops w') (hplaces : f.Places w.files stops w'.files) :
    f.Stores w (savedOf stops) w' where
  workingDirectory := hplaces.workingDirectory
  images := h.images
  distinct := hplaces.distinct
  created entry hentry := by
    obtain ⟨image, hmem⟩ := mem_savedOf.1 hentry
    obtain ⟨hnone, hfile⟩ := hplaces.created entry image hmem
    obtain ⟨url, hremote, hserved⟩ := h.served hmem
    exact ⟨hnone, url, image, hremote, hserved, hfile⟩
  elsewhere := hplaces.elsewhere

/-- What becomes of an entry when it is met again later: nothing is saved twice, and what failed may have been filled
by another entry. -/
inductive Settles : Fate → Fate → Prop
  | unavailable : Settles .unavailable .unavailable
  | present : Settles .present .present
  | saved (image) : Settles (.saved image) .present
  | failed : Settles .failed .failed
  | filled : Settles .failed .present

/-- The second of two reports about the same entries. -/
structure Settled (first second : FetchReport) : Prop where
  downloaded : second.downloaded = 0
  missingRemote : second.missingRemote = first.missingRemote
  failed : second.failed ≤ first.failed
  skipped : second.skipped = first.skipped + first.downloaded + (first.failed - second.failed)

theorem Settled.count {first second : FetchReport} (h : Settled first second) {fate fate' : Fate}
    (hfates : Settles fate fate') : Settled (Fate.count first fate) (Fate.count second fate') := by
  obtain ⟨hdownloaded, hmissing, hfailed, hskipped⟩ := h
  cases hfates <;> constructor <;> simp only [Fate.count] <;> omega

/-- An entry that has met its fate meets the one that it settles in whenever it is met later. -/
theorem Meets.again {f : ImageFetcher} {entry : ManifestEntry} {w w' later : World} {fate : Fate}
    (h : Meets World.files f entry w fate w') {allowed : Place → Node → Prop} (hgrown : w'.files.Alters later.files allowed)
    (himages : later.images = w'.images) :
    ∃ fate' later', Meets World.files f entry later fate' later' ∧ Settles fate fate' ∧ later'.files = later.files := by
  cases h with
  | unavailable hremote => exact ⟨.unavailable, later, .unavailable hremote, .unavailable, rfl⟩
  | present hremote hheld => exact ⟨.present, later, .present hremote (hgrown.holds hheld), .present, rfl⟩
  | saved hremote hmissing hreply hwritten =>
    have hread := FileSystem.read_write _ _ _ _ (written_of_saved World.reflects_files hwritten)
    have hheld := hgrown.holds (FileSystem.holds_of_read hread)
    exact ⟨.present, later, .present hremote hheld, .saved _, rfl⟩
  | @failed url hremote hmissing hreply =>
    cases hheld : later.files.holds (f.target entry) with
    | true => exact ⟨.present, later, .present hremote hheld, .filled, rfl⟩
    | false =>
      have hsame : (f.rested (asked url w)).images = w.images := images_rested f _
      have hreply' : ∀ image, answer url later ≠ .served image := by
        rw [answer_world, himages, hsame]
        exact hreply
      have hfiles : (f.rested (asked url later)).files = later.files :=
        files_rested World.reflects_files.toWorksOn f (asked url later)
      exact ⟨.failed, _, .failed hremote hheld hreply', .failed, hfiles⟩

/-- A tour that is made again later changes no file. -/
theorem Tour.again {f : ImageFetcher} {w w' later : World} {stops : List (ManifestEntry × Fate)}
    (h : Tour World.files f w stops w') {allowed : Place → Node → Prop} (hgrown : w'.files.Alters later.files allowed)
    (himages : later.images = w'.images) :
    ∃ stops' later', stops'.map Prod.fst = stops.map Prod.fst ∧ Tour World.files f later stops' later' ∧
      later'.files = later.files ∧ ∀ first second, Settled first second →
        Settled (Fate.tally first (stops.map Prod.snd)) (Fate.tally second (stops'.map Prod.snd)) := by
  induction h generalizing later with
  | nil w => exact ⟨[], later, rfl, .nil later, rfl, fun _ _ hsettled => hsettled⟩
  | @cons w mid w' entry fate rest first others ih =>
    have hmid := (others.alters World.reflects_files).trans (hgrown.mono fun _ _ _ => trivial)
    obtain ⟨fate', next, hmeets, hsettles, hfiles⟩ := first.again hmid (himages.trans others.images)
    rw [← hfiles] at hgrown
    obtain ⟨stops', later', hentries, htour, hfiles', htally⟩ := ih hgrown (hmeets.images.trans himages)
    refine ⟨(entry, fate') :: stops', later', ?_, .cons hmeets htour, hfiles'.trans hfiles, ?_⟩
    · rw [List.map_cons, List.map_cons, hentries]
    · intro before before' hsettled
      exact htally _ _ (hsettled.count hsettles)

/-- If no path goes up on its way, a run that fails does so over an image that was served and cannot be saved, and not
over its source. One that ends well has counted each entry once, changed nothing that was there, and saved one image
for each that it counts; a second run behind it saves nothing, and skips what the first has saved besides what it has
skipped itself. -/
theorem fetchAll_settles (f : ImageFetcher) (manifest : List ManifestEntry) (w : World) (htree : w.files.IsTree)
    (hroot : w.files.Grounded f.assetRoot) (hpaths : ∀ entry ∈ manifest, ".." ∉ Path.parts entry.localPath) :
    (∀ failure w', (f.fetchAll manifest : Attempt (StateM World) FetchReport).Ends w (.error failure) w' →
      ∃ before entry after report mid, manifest = before ++ entry :: after ∧
        (f.fetchAll before : Attempt (StateM World) FetchReport).Succeeds w report mid ∧
        Thwarted World.files f entry mid failure w') ∧
    ∀ report w', (f.fetchAll manifest : Attempt (StateM World) FetchReport).Succeeds w report w' →
      report.downloaded + report.skipped + report.missingRemote + report.failed = manifest.length ∧
      (∀ place node, w.files.find? place = some node → w'.files.find? place = some node) ∧
      (∃ saved, saved.Sublist manifest ∧ saved.length = report.downloaded ∧ f.Stores w saved w') ∧
      ∃ again w'', (f.fetchAll manifest : Attempt (StateM World) FetchReport).Succeeds w' again w'' ∧
        w''.files = w'.files ∧ Settled report again := by
  constructor
  · intro failure w' h
    obtain ⟨stops, entry, after, mid, rfl, htour, hthwarted⟩ :=
      thwarted_of_foldlM World.reflects_files f manifest .empty w w' failure h
    exact ⟨_, entry, after, _, mid, rfl, htour.foldlM World.reflects_files .empty, hthwarted⟩
  · intro report w' h
    obtain ⟨stops, rfl, htour, rfl⟩ := tour_of_foldlM World.reflects_files f manifest .empty report w w' h
    have hplaces := htour.places World.reflects_files htree hroot hpaths
    have hsum := sum_tally .empty (stops.map Prod.snd)
    have hdownloaded := downloaded_tally .empty stops
    have hnothing : Settled .empty .empty := ⟨rfl, rfl, Nat.le_refl _, rfl⟩
    obtain ⟨stops', w'', hentries, hagain, hfiles, htally⟩ := htour.again (.refl w'.files fun _ _ => True) rfl
    have hsecond := hagain.foldlM World.reflects_files .empty
    rw [hentries] at hsecond
    refine ⟨?_, fun place node => hplaces.kept, ⟨_, savedOf_sublist stops, ?_, htour.stores hplaces⟩, ?_⟩
    · simpa [FetchReport.empty] using hsum
    · simpa [FetchReport.empty] using hdownloaded.symm
    · exact ⟨_, w'', hsecond, hfiles, htally _ _ hnothing⟩

/-- Two entries share a path, one finds nothing at its address and a later one fills its place, and one has no
address. -/
def album : List ManifestEntry :=
  [⟨"a", none, some "http://one", "x.webp"⟩, ⟨"b", none, some "http://none", "y.webp"⟩,
    ⟨"c", none, some "http://two", "y.webp"⟩, ⟨"d", none, none, "z.webp"⟩, ⟨"e", none, some "http://two", "x.webp"⟩]

theorem fetchAll_settles_of_shared_paths :
    let f : ImageFetcher := ⟨"assets", .ofMilliseconds 10⟩
    let w := World.gallery [] [("http://one", "one"), ("http://two", "two")]
    ∃ w' w'', (f.fetchAll album : Attempt (StateM World) FetchReport).Succeeds w ⟨2, 1, 1, 1⟩ w' ∧
      (f.fetchAll album : Attempt (StateM World) FetchReport).Succeeds w' ⟨0, 4, 1, 0⟩ w'' ∧ w''.files = w'.files := by
  intro f w
  have htree : w.files.IsTree := FileSystem.isTree_of_entries (by decide)
  have hroot : w.files.Grounded f.assetRoot := FileSystem.grounded_of_parts _ (by decide +kernel)
  have hpaths : ∀ entry ∈ album, ".." ∉ Path.parts entry.localPath := by decide +kernel
  obtain ⟨w', hfirst⟩ : ∃ w', (f.fetchAll album : Attempt (StateM World) FetchReport).Succeeds w ⟨2, 1, 1, 1⟩ w' :=
    exists_succeeds (eq_ok_of_toOption (by decide +kernel))
  obtain ⟨-, -, -, again, w'', hagain, hfiles, hsettled⟩ :=
    (fetchAll_settles f album w htree hroot hpaths).2 _ w' hfirst
  have hreport : (Id.run ((f.fetchAll album : Attempt (StateM World) FetchReport).run.run w')).1.toOption =
      some ⟨0, 4, 1, 0⟩ := by
    have hlast : w' = (Id.run ((f.fetchAll album : Attempt (StateM World) FetchReport).run.run w)).2 :=
      (congrArg Prod.snd hfirst).symm
    rw [hlast]
    decide +kernel
  rw [hagain] at hreport
  obtain rfl := Option.some.inj hreport
  exact ⟨w', w'', hfirst, hagain, hfiles⟩

/-- Where the asset root goes up from a directory that is missing, no file is found by its path until that directory is
made for the image: then a file that was there is written over. -/
theorem fetchAll_replaces_file :
    let f : ImageFetcher := ⟨"m/..", .ofMilliseconds 0⟩
    let w := World.gallery [(["a.webp"], .file "old".toUTF8)] [("http://one", "one")]
    let manifest : List ManifestEntry := [⟨"a", none, some "http://one", "a.webp"⟩]
    let w' := (Id.run ((f.fetchAll manifest : Attempt (StateM World) FetchReport).run.run w)).2
    w.files.IsTree ∧ (∀ entry ∈ manifest, "." ∉ Path.parts entry.localPath ∧ ".." ∉ Path.parts entry.localPath) ∧
      (f.fetchAll manifest : Attempt (StateM World) FetchReport).Succeeds w ⟨1, 0, 0, 0⟩ w' ∧
      w.files.read "a.webp" = .ok "old".toUTF8 ∧ w'.files.read "a.webp" = .ok "one".toUTF8 := by
  intro f w manifest w'
  refine ⟨FileSystem.isTree_of_entries (by decide), by decide +kernel, ?_, ?_, ?_⟩
  · exact ends_of_fst (eq_ok_of_toOption (by decide +kernel))
  · exact eq_ok_of_toOption (by decide +kernel)
  · exact eq_ok_of_toOption (by decide +kernel)

end CardIndex.ImageFetcher
