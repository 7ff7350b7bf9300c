import CardIndex.Proofs.Duration
import CardIndex.Proofs.Images.Settling

namespace CardIndex.ImageFetcher

open Attempt

section

variable {σ : Type} [Disk (StateM σ)] [Clock (StateM σ)] [ImageSource (StateM σ)]

/-- A state tells what it was asked for and when, and how long it has waited: for pauses, and for nothing else. -/
structure Records (files : σ → FileSystem) (requests : σ → List (Nat × String)) (waited : σ → Nat) : Prop extends
    Reflects files where
  makingDirectories : ∀ path s, let s' := (Id.run ((Disk.makeDirectories path : StateM σ (Except IoError Unit)).run s)).2
    requests s' = requests s ∧ waited s' = waited s
  writing : ∀ path content s, let s' := (Id.run ((Disk.write path content : StateM σ (Except IoError Unit)).run s)).2
    requests s' = requests s ∧ waited s' = waited s
  pausing : ∀ d s, let s' := (Id.run ((Clock.pause d : StateM σ Unit).run s)).2
    requests s' = requests s ∧ waited s' = waited s + d.pauseLength
  fetching : ∀ url s, let s' := (Id.run ((ImageSource.fetch url : StateM σ Reply).run s)).2
    requests s' = requests s ++ [(waited s, url)] ∧ waited s' = waited s

/-- The state in which an entry's turn comes when these entries were met before. -/
def turn (f : ImageFetcher) (s : σ) (before : List ManifestEntry) : σ :=
  (Id.run ((f.fetchAll before : Attempt (StateM σ) FetchReport).run.run s)).2

/-- The address that is asked for when an entry's turn comes: its own, unless its image is there. -/
def wanted? (f : ImageFetcher) (fs : FileSystem) (entry : ManifestEntry) : Option String :=
  if fs.holds (f.target entry) then none else entry.remote

/-- The addresses that are asked for, each entry having its turn after those before it in the manifest. -/
def asks (f : ImageFetcher) (files : σ → FileSystem) (s : σ) (manifest : List ManifestEntry) : List String :=
  manifest.zipIdx.filterMap fun (entry, k) => f.wanted? (files (f.turn s (manifest.take k))) entry

end

/-- Requests at equal distances, the first of them at once. -/
def paced (pace start : Nat) (addresses : List String) : List (Nat × String) :=
  addresses.mapIdx fun k url => (start + k * pace, url)

theorem paced_concat (pace start : Nat) (addresses : List String) (url : String) :
    paced pace start (addresses ++ [url]) = paced pace start addresses ++ [(start + addresses.length * pace, url)] :=
  List.mapIdx_concat

section

variable {σ : Type} [Disk (StateM σ)] [Clock (StateM σ)] [ImageSource (StateM σ)] (files : σ → FileSystem)
  (f : ImageFetcher) (s : σ)

theorem asks_concat (before : List ManifestEntry) (entry : ManifestEntry) :
    f.asks files s (before ++ [entry]) =
      f.asks files s before ++ (f.wanted? (files (f.turn s before)) entry).toList := by
  have hbefore : ∀ e ∈ before.zipIdx, (before ++ [entry]).take e.2 = before.take e.2 := by
    intro e he
    have hlt := (List.mem_zipIdx' he).1
    exact List.take_append_of_le_length hlt.le
  unfold asks
  rw [List.zipIdx_append, List.filterMap_append]
  congr 1
  · refine List.filterMap_congr fun e he => ?_
    dsimp only
    rw [hbefore e he]
  · cases hwanted : f.wanted? (files (f.turn s before)) entry with
    | none => simp [hwanted]
    | some url => simp [hwanted]

theorem turn_of_succeeds {before : List ManifestEntry} {report : FetchReport} {s' : σ}
    (h : (f.fetchAll before : Attempt (StateM σ) FetchReport).Succeeds s report s') : f.turn s before = s' :=
  congrArg Prod.snd h

theorem succeeds_concat (before : List ManifestEntry) (entry : ManifestEntry) (report : FetchReport) (s' : σ) :
    (f.fetchAll (before ++ [entry]) : Attempt (StateM σ) FetchReport).Succeeds s report s' ↔
      ∃ counted, (f.fetchAll before : Attempt (StateM σ) FetchReport).Succeeds s counted (f.turn s before) ∧
        (f.fetchEntry counted entry : Attempt (StateM σ) FetchReport).Succeeds (f.turn s before) report s' := by
  unfold fetchAll
  rw [List.foldlM_append, succeeds_bind]
  simp only [List.foldlM_cons, List.foldlM_nil, bind_pure]
  constructor
  · rintro ⟨counted, mid, hbefore, hentry⟩
    obtain rfl := f.turn_of_succeeds s hbefore
    exact ⟨counted, hbefore, hentry⟩
  · rintro ⟨counted, hbefore, hentry⟩
    exact ⟨counted, _, hbefore, hentry⟩

end

theorem wanted?_of_missing {f : ImageFetcher} {fs : FileSystem} {entry : ManifestEntry}
    (h : fs.holds (f.target entry) = false) : f.wanted? fs entry = entry.remote := by
  rw [wanted?, h]
  exact if_neg Bool.false_ne_true

theorem wanted?_of_held {f : ImageFetcher} {fs : FileSystem} {entry : ManifestEntry}
    (h : fs.holds (f.target entry) = true) : f.wanted? fs entry = none := by
  rw [wanted?, if_pos h]

section

variable {σ : Type} [Disk (StateM σ)] [Clock (StateM σ)] [ImageSource (StateM σ)] {files : σ → FileSystem}
  {requests : σ → List (Nat × String)} {waited : σ → Nat} {f : ImageFetcher} {s s' : σ}

theorem records_rested (hrecords : Records files requests waited) (f : ImageFetcher) (s : σ) :
    requests (f.rested s) = requests s ∧ waited (f.rested s) = waited s + f.delay.pauseLength := by
  unfold rested
  cases hzero : f.delay.isZero with
  | true =>
    rw [Duration.pauseLength_of_isZero hzero, Nat.add_zero]
    exact ⟨rfl, rfl⟩
  | false => exact hrecords.pausing f.delay s

/-- Saving an image is no request and takes no time. -/
theorem records_writeAsset (hrecords : Records files requests waited) {path : Path} {image : ByteArray}
    {r : Except Failure Unit} (h : (writeAsset path image : Attempt (StateM σ) Unit).Ends s r s') :
    requests s' = requests s ∧ waited s' = waited s := by
  have hpreserves : Preserves (fun t => requests t = requests s ∧ waited t = waited s)
      (writeAsset path image : Attempt (StateM σ) Unit) := by
    refine preserves_writeAsset (fun parent t _ ht => ?_) fun t ht => ?_
    · have hmade := hrecords.makingDirectories parent t
      exact ⟨hmade.1.trans ht.1, hmade.2.trans ht.2⟩
    · have hwritten := hrecords.writing path image t
      exact ⟨hwritten.1.trans ht.1, hwritten.2.trans ht.2⟩
  have hkept := hpreserves s ⟨rfl, rfl⟩
  rw [h] at hkept
  exact hkept

/-- An entry that is wanted costs one request and one pause, and no other costs anything. -/
theorem Meets.asks (hrecords : Records files requests waited) {entry : ManifestEntry} {fate : Fate}
    (h : Meets files f entry s fate s') :
    requests s' = requests s ++ (f.wanted? (files s) entry).toList.map (waited s, ·) ∧
      waited s' = waited s + (f.wanted? (files s) entry).toList.length * f.delay.pauseLength := by
  have hrested (t : σ) := records_rested hrecords f t
  cases h with
  | unavailable hremote =>
    have hwanted : f.wanted? (files s) entry = none := by simp [wanted?, hremote]
    simp [hwanted]
  | present hremote hheld => simp [wanted?_of_held hheld]
  | @failed url hremote hmissing hreply =>
    obtain ⟨hrequest, htime⟩ := hrecords.fetching url s
    rw [wanted?_of_missing hmissing, hremote, Option.toList_some, List.length_singleton, Nat.one_mul, (hrested _).1,
      (hrested _).2]
    exact ⟨hrequest, congrArg (· + f.delay.pauseLength) htime⟩
  | @saved url image t hremote hmissing hreply hwritten =>
    obtain ⟨hrequest, htime⟩ := hrecords.fetching url s
    obtain ⟨hsame, hsame'⟩ := records_writeAsset hrecords hwritten
    rw [wanted?_of_missing hmissing, hremote, Option.toList_some, List.length_singleton, Nat.one_mul, (hrested _).1,
      (hrested _).2, hsame, hsame']
    exact ⟨hrequest, congrArg (· + f.delay.pauseLength) htime⟩

/-- As long as nothing fails, requests are made for what is wanted, as far apart as a pause lasts. -/
theorem paced_of_succeeds (hrecords : Records files requests waited) (before : List ManifestEntry)
    (report : FetchReport) (s' : σ)
    (h : (f.fetchAll before : Attempt (StateM σ) FetchReport).Succeeds s report s') :
    requests s' = requests s ++ paced f.delay.pauseLength (waited s) (f.asks files s before) ∧
      waited s' = waited s + (f.asks files s before).length * f.delay.pauseLength := by
  induction before using List.reverseRecOn generalizing report s' with
  | nil =>
    obtain ⟨-, rfl⟩ := (succeeds_pure _ _ _ _).1 h
    have hnone : f.asks files s [] = [] := rfl
    rw [hnone, List.length_nil, Nat.zero_mul, Nat.add_zero]
    exact ⟨(List.append_nil _).symm, rfl⟩
  | append_singleton before entry ih =>
    obtain ⟨counted, hbefore, hentry⟩ := (f.succeeds_concat s before entry report s').1 h
    obtain ⟨fate, hmeets, -⟩ := (succeeds_fetchEntry hrecords.toReflects f counted entry _ report s').1 hentry
    obtain ⟨hrequests, hwaited⟩ := ih counted _ hbefore
    obtain ⟨hrequests', hwaited'⟩ := hmeets.asks hrecords
    rw [asks_concat, hrequests', hwaited', hrequests, hwaited]
    cases f.wanted? (files (f.turn s before)) entry with
    | none =>
      rw [Option.toList_none, List.map_nil, List.append_nil, List.append_nil, List.length_nil, Nat.zero_mul, Nat.add_zero]
      exact ⟨rfl, rfl⟩
    | some url =>
      rw [Option.toList_some, paced_concat, List.append_assoc, List.length_append, List.length_singleton, Nat.add_mul,
        Nat.add_assoc]
      exact ⟨rfl, rfl⟩

/-- An image that was served for an entry that was asked for is saved, if the run goes on. -/
theorem Meets.saved_of_wanted {entry : ManifestEntry} {fate : Fate} (h : Meets files f entry s fate s') {url : String}
    {image : ByteArray} (hwanted : f.wanted? (files s) entry = some url) (hreply : answer url s = .served image) :
    fate = .saved image := by
  cases h with
  | unavailable hremote => simp [wanted?, hremote] at hwanted
  | present hremote hheld =>
    rw [wanted?_of_held hheld] at hwanted
    cases hwanted
  | failed hremote hmissing hrefused =>
    rw [wanted?_of_missing hmissing, hremote] at hwanted
    obtain rfl := Option.some.inj hwanted
    exact absurd hreply (hrefused image)
  | saved hremote hmissing hserved _ =>
    rw [wanted?_of_missing hmissing, hremote] at hwanted
    obtain rfl := Option.some.inj hwanted
    rw [hserved] at hreply
    rw [Reply.served.inj hreply]

theorem Meets.read (hfiles : Reflects files) {entry : ManifestEntry} {image : ByteArray}
    (h : Meets files f entry s (.saved image) s') : (files s').read (f.target entry) = .ok image := by
  cases h with
  | saved _ _ _ hwritten => exact FileSystem.read_write _ _ _ _ (written_of_saved hfiles hwritten)

/-- Once an image is saved by a path in the asset root, the asset root is there. -/
theorem grounded_of_read {fs : FileSystem} {entry : ManifestEntry} {image : ByteArray}
    (hrelative : Path.isAbsolute entry.localPath = false) (h : fs.read (f.target entry) = .ok image) :
    fs.Grounded f.assetRoot :=
  FileSystem.grounded_of_locate hrelative ((fs.read_ok _ _).1 h).1

/-- An image that was saved is there as long as the run goes on, and unchanged if the asset root was there or is not
written around. -/
theorem saved_stays (hfiles : Reflects files) {front back : List ManifestEntry} {entry : ManifestEntry}
    {report : FetchReport} {url : String} {image : ByteArray} (htree : (files s).IsTree)
    (hpaths : ∀ e ∈ front ++ entry :: back, ".." ∉ Path.parts e.localPath)
    (h : (f.fetchAll (front ++ entry :: back) : Attempt (StateM σ) FetchReport).Succeeds s report s')
    (hwanted : f.wanted? (files (f.turn s front)) entry = some url)
    (hreply : answer url (f.turn s front) = .served image) :
    (files s').holds (f.target entry) = true ∧
      (((files s).Grounded f.assetRoot ∨ ∀ e ∈ front ++ entry :: back, Path.isAbsolute e.localPath = false) →
        (files s').read (f.target entry) = .ok image) := by
  unfold fetchAll at h
  rw [List.foldlM_append, succeeds_bind] at h
  obtain ⟨counted, mid, hfront, h⟩ := h
  rw [List.foldlM_cons, succeeds_bind] at h
  obtain ⟨counted', next, hentry, hback⟩ := h
  obtain rfl : f.turn s front = mid := f.turn_of_succeeds s hfront
  obtain ⟨earlier, -, hbefore, -⟩ := tour_of_foldlM hfiles f front .empty counted s _ hfront
  obtain ⟨fate, hmeets, -⟩ := (succeeds_fetchEntry hfiles f counted entry _ counted' next).1 hentry
  obtain ⟨later, hlater, hafter, -⟩ := tour_of_foldlM hfiles f back counted' report next s' hback
  obtain rfl := hmeets.saved_of_wanted hwanted hreply
  have hread := hmeets.read hfiles
  have halters := hafter.alters hfiles
  refine ⟨halters.holds (FileSystem.holds_of_read hread), fun hroot => ?_⟩
  have hgrounded : (files next).Grounded f.assetRoot := by
    rcases hroot with hroot | hrelative
    · exact hroot.spares ((hbefore.alters hfiles).trans (hmeets.alters hfiles)).spares_root
    · exact grounded_of_read (hrelative entry (by simp)) hread
  have hrest : ∀ e ∈ later.map Prod.fst, ".." ∉ Path.parts e.localPath := by
    intro e he
    exact hpaths e (by simp [hlater ▸ he])
  have hplaces := hafter.places hfiles (hmeets.isTree hfiles (hbefore.isTree hfiles htree)) hgrounded hrest
  exact halters.read (fun _ _ => hplaces.kept) hread

/-- An image that cannot be saved ends a run with the request for it. No pause follows, and on disk there is nothing new
but directories above its place. -/
theorem paced_of_error (hrecords : Records files requests waited) {manifest : List ManifestEntry} {failure : Failure}
    (h : (f.fetchAll manifest : Attempt (StateM σ) FetchReport).Ends s (.error failure) s') :
    ∃ done entry rest report, manifest = done ++ entry :: rest ∧
      (f.fetchAll done : Attempt (StateM σ) FetchReport).Succeeds s report (f.turn s done) ∧
      Thwarted files f entry (f.turn s done) failure s' ∧
      requests s' = requests s ++ paced f.delay.pauseLength (waited s) (f.asks files s (done ++ [entry])) ∧
      waited s' = waited s + (f.asks files s done).length * f.delay.pauseLength ∧
      files s' = prepared (files (f.turn s done)) (f.target entry) := by
  have hfold : (manifest.foldlM f.fetchEntry .empty : Attempt (StateM σ) FetchReport).Ends s
      (.error failure) s' := h
  obtain ⟨done, entry, rest, report, mid, rfl, hdone, hstopped⟩ := stopped_of_foldlM manifest _ s s' failure hfold
  obtain rfl : f.turn s done = mid := f.turn_of_succeeds s hdone
  obtain ⟨hrequests, hwaited⟩ := paced_of_succeeds hrecords done report _ hdone
  obtain ⟨hthwarted, url, image, hremote, hunsaved⟩ := stopped_of_fetchEntry hrecords.toReflects hstopped
  have hwanted := (wanted?_of_missing hthwarted.missing).trans hremote
  obtain ⟨-, _, -, -, hunwritten⟩ := hthwarted.unwritten
  obtain ⟨hfiles, -⟩ := prepared_of_writeAsset hunwritten
  obtain ⟨hrequest, htime⟩ := hrecords.fetching url (f.turn s done)
  obtain ⟨hsame, hsame'⟩ := records_writeAsset hrecords hunsaved
  refine ⟨done, entry, rest, report, rfl, hdone, hthwarted, ?_, hsame'.trans (htime.trans hwaited), hfiles⟩
  have hlast := hsame.trans hrequest
  rw [hrequests, hwaited, List.append_assoc, ← paced_concat] at hlast
  rw [asks_concat, hwanted, Option.toList_some]
  exact hlast

/-- The source, which may answer as it likes, is asked for every entry with an address whose image is not there when its
turn comes, and for no other, in the order of the manifest and with nothing but a pause after each request. An image that
cannot be saved ends the run there; what was saved before stays. -/
theorem fetchAll_paced (hrecords : Records files requests waited) (f : ImageFetcher) (manifest : List ManifestEntry)
    (s : σ) (htree : (files s).IsTree) (hpaths : ∀ entry ∈ manifest, ".." ∉ Path.parts entry.localPath) :
    let pace := min f.delay.inNanoseconds Duration.longestPause.inNanoseconds
    ∃ result s' done, (f.fetchAll manifest : Attempt (StateM σ) FetchReport).Ends s result s' ∧
      waited s' = waited s + (f.asks files s done).length * pace ∧
      (∀ report, result = .ok report → done = manifest ∧
        requests s' = requests s ++ paced pace (waited s) (f.asks files s manifest)) ∧
      (∀ failure, result = .error failure → ∃ entry rest, manifest = done ++ entry :: rest ∧
        Thwarted files f entry (f.turn s done) failure s' ∧
        requests s' = requests s ++ paced pace (waited s) (f.asks files s (done ++ [entry])) ∧
        ∀ place node, (files (f.turn s done)).find? place = some node → (files s').find? place = some node) ∧
      ∀ front entry back url image, done = front ++ entry :: back →
        f.wanted? (files (f.turn s front)) entry = some url → answer url (f.turn s front) = .served image →
          (files s').holds (f.target entry) = true ∧
            (((files s).Grounded f.assetRoot ∨ ∀ e ∈ manifest, Path.isAbsolute e.localPath = false) →
              (files s').read (f.target entry) = .ok image) := by
  intro pace
  obtain ⟨result, s', h⟩ := exists_ends (f.fetchAll manifest : Attempt (StateM σ) FetchReport) s
  cases result with
  | ok report =>
    obtain ⟨hrequests, hwaited⟩ := paced_of_succeeds hrecords manifest report s' h
    refine ⟨_, s', manifest, h, hwaited, fun _ _ => ⟨rfl, hrequests⟩, (fun _ hfailure => by cases hfailure), ?_⟩
    rintro front entry back url image rfl hwanted hreply
    exact saved_stays hrecords.toReflects htree hpaths h hwanted hreply
  | error failure =>
    obtain ⟨done, entry, rest, report, rfl, hdone, hthwarted, hrequests, hwaited, hfiles⟩ := paced_of_error hrecords h
    have halters := alters_prepared (files (f.turn s done)) (f.target entry)
    have hkept : ∀ place node, (files (f.turn s done)).find? place = some node → (files s').find? place = some node :=
      fun _ _ hfound => hfiles ▸ find?_prepared hfound
    rw [← hfiles] at halters
    refine ⟨_, s', done, h, hwaited, (fun _ hok => by cases hok), ?_, ?_⟩
    · intro failure' hfailure
      obtain rfl := Except.error.inj hfailure
      exact ⟨entry, rest, rfl, hthwarted, hrequests, hkept⟩
    · rintro front saved back url image rfl hwanted hreply
      have hbefore : ∀ e ∈ front ++ saved :: back, ".." ∉ Path.parts e.localPath :=
        fun e he => hpaths e (List.mem_append_left _ he)
      obtain ⟨hholds, hread⟩ := saved_stays hrecords.toReflects htree hbefore hdone hwanted hreply
      refine ⟨halters.holds hholds, fun hroot => halters.read hkept (hread (hroot.imp_right fun hrelative e he => ?_))⟩
      exact hrelative e (List.mem_append_left _ he)

end

theorem records_world : Records World.files World.requests World.waited where
  toReflects := World.reflects_files
  makingDirectories _ _ := ⟨rfl, rfl⟩
  writing _ _ _ := ⟨rfl, rfl⟩
  pausing _ _ := ⟨rfl, List.foldl_concat _ _ _ _⟩
  fetching _ _ := ⟨rfl, rfl⟩

/-- An image is saved, the next would lie below it, and a last one is never asked for. -/
def blockedAlbum : List ManifestEntry :=
  [⟨"a", none, some "http://one", "x.webp"⟩, ⟨"b", none, some "http://two", "x.webp/y.webp"⟩,
    ⟨"c", none, some "http://two", "z.webp"⟩]

/-- A world whose source answers in turn, whatever it is asked for, and in the end not at all. -/
structure Scripted where
  world : World
  replies : List Reply

namespace Scripted

def onWorld {α : Type} (operation : StateM World α) : StateM Scripted α :=
  World.within Scripted.world (fun t world => { t with world }) operation

instance : Disk (StateM Scripted) where
  currentDirectory := onWorld Disk.currentDirectory
  holds path := onWorld (Disk.holds path)
  read path := onWorld (Disk.read path)
  write path content := onWorld (Disk.write path content)
  makeDirectories path := onWorld (Disk.makeDirectories path)
  move source target := onWorld (Disk.move source target)

instance : Clock (StateM Scripted) where
  now := onWorld Clock.now
  pause d := onWorld (Clock.pause d)

instance : ImageSource (StateM Scripted) where
  fetch url := fun t => (t.replies.headD .failed,
    { world := { t.world with requests := t.world.requests ++ [(t.world.waited, url)] }, replies := t.replies.tail })

theorem records : Records (·.world.files) (·.world.requests) fun t : Scripted => t.world.waited where
  holds _ _ := rfl
  makeDirectories _ _ := rfl
  write _ _ _ := rfl
  pause _ _ := rfl
  fetch _ _ := rfl
  held _ _ := rfl
  made _ _ := rfl
  wrote _ _ _ := rfl
  makingDirectories _ _ := ⟨rfl, rfl⟩
  writing _ _ _ := ⟨rfl, rfl⟩
  pausing _ _ := ⟨rfl, List.foldl_concat _ _ _ _⟩
  fetching _ _ := ⟨rfl, rfl⟩

end Scripted

/-- The same address three times, and the same path twice. -/
def echoes : List ManifestEntry :=
  [⟨"a", none, some "http://one", "x.webp"⟩, ⟨"b", none, some "http://one", "y.webp"⟩,
    ⟨"c", none, some "http://one", "y.webp"⟩]

/-- First the source answers one address in three ways, then an image cannot be saved. -/
theorem fetchAll_paced_of_shared_paths :
    let f : ImageFetcher := ⟨"assets", .ofMilliseconds 10⟩
    let t : Scripted := ⟨World.gallery [] [], [.served "one".toUTF8, .failed, .served "two".toUTF8]⟩
    let w := World.gallery [] [("http://one", "one"), ("http://two", "two")]
    (∃ report t', (f.fetchAll echoes : Attempt (StateM Scripted) FetchReport).Ends t (.ok report) t' ∧
      t'.world.requests = [(0, "http://one"), (10000000, "http://one"), (20000000, "http://one")] ∧
      t'.world.waited = 30000000 ∧ t'.world.files.read "assets/x.webp" = .ok "one".toUTF8) ∧
    ∃ failure w', (f.fetchAll blockedAlbum : Attempt (StateM World) FetchReport).Ends w (.error failure) w' ∧
      w'.requests = [(0, "http://one"), (10000000, "http://two")] ∧ w'.waited = 10000000 ∧
      w'.files.read "assets/x.webp" = .ok "one".toUTF8 := by
  intro f t w
  have htree : w.files.IsTree := FileSystem.isTree_of_entries (by decide)
  have hroot : w.files.Grounded f.assetRoot := FileSystem.grounded_of_parts _ (by decide +kernel)
  have hwanted : f.wanted? w.files ⟨"a", none, some "http://one", "x.webp"⟩ = some "http://one" := by decide +kernel
  have htarget : f.target ⟨"a", none, some "http://one", "x.webp"⟩ = "assets/x.webp" := by decide +kernel
  have hpace : min f.delay.inNanoseconds Duration.longestPause.inNanoseconds = 10000000 := by decide +kernel
  constructor
  · obtain ⟨result, t', done, hends, hwaited, hok, -, hkept⟩ :=
      fetchAll_paced Scripted.records f echoes t htree (by decide +kernel)
    have hresult : (Id.run ((f.fetchAll echoes : Attempt (StateM Scripted) FetchReport).run.run t)).1.toOption =
        some ⟨2, 0, 0, 1⟩ := by decide +kernel
    obtain rfl : result = .ok ⟨2, 0, 0, 1⟩ := (congrArg Prod.fst hends).symm.trans (eq_ok_of_toOption hresult)
    obtain ⟨rfl, hrequests⟩ := hok _ rfl
    have hasks : f.asks (fun t : Scripted => t.world.files) t echoes = ["http://one", "http://one", "http://one"] := by
      decide +kernel
    rw [hasks, hpace] at hrequests hwaited
    refine ⟨_, t', hends, hrequests.trans (by decide +kernel), hwaited.trans (by decide +kernel), ?_⟩
    exact htarget ▸ (hkept [] _ _ "http://one" _ rfl hwanted rfl).2 (.inl hroot)
  · obtain ⟨result, w', done, hends, hwaited, -, herror, hkept⟩ :=
      fetchAll_paced records_world f blockedAlbum w htree (by decide +kernel)
    obtain ⟨failure, hfailed⟩ : ∃ failure, (f.fetchAll blockedAlbum : Attempt (StateM World) FetchReport).Ends w
        (.error failure) _ := exists_failure_of_isNone (by decide +kernel)
    obtain ⟨rfl, hlast⟩ := Prod.mk.inj (hends.symm.trans hfailed)
    obtain ⟨entry, rest, hsplit, -, hrequests, -⟩ := herror failure rfl
    have htime : w'.waited = 10000000 := by
      rw [hlast]
      decide +kernel
    -- the time tells that the second entry ended the run
    have hone : (f.asks World.files w done).length = 1 := by
      have hstart : w.waited = 0 := rfl
      rw [htime, hpace, hstart, Nat.zero_add] at hwaited
      exact (Nat.eq_of_mul_eq_mul_right (by decide) ((Nat.one_mul 10000000).trans hwaited)).symm
    have hfront : ∀ front ∈ blockedAlbum.inits, (f.asks World.files w front).length = 1 →
        front = blockedAlbum.take 1 := by decide +kernel
    obtain rfl : done = blockedAlbum.take 1 := hfront done ((List.mem_inits _ _).2 ⟨_, hsplit.symm⟩) hone
    cases hsplit
    refine ⟨failure, w', hends, ?_, htime, ?_⟩
    · have hasks : f.asks World.files w (blockedAlbum.take 2) = ["http://one", "http://two"] := by decide +kernel
      rw [hpace] at hrequests
      exact hrequests.trans ((congrArg _ (congrArg _ hasks)).trans (by decide +kernel))
    · exact htarget ▸ (hkept [] _ [] "http://one" _ rfl hwanted rfl).2 (.inl hroot)

/-- No pause lasts longer than thirty years, whatever is asked for. And where the asset root goes up from a directory that
is missing, an image that was saved by a path outside it is written over once that directory is made. -/
theorem fetchAll_outlasts_pause :
    (let f : ImageFetcher := ⟨"", .ofMilliseconds 946080000001⟩
    let w := World.gallery [] [("http://one", "one"), ("http://two", "two")]
    let manifest : List ManifestEntry := [⟨"a", none, some "http://one", "a"⟩, ⟨"b", none, some "http://two", "b"⟩]
    let w' := f.turn w manifest
    w.files.IsTree ∧ (f.fetchAll manifest : Attempt (StateM World) FetchReport).Succeeds w ⟨2, 0, 0, 0⟩ w' ∧
      w'.requests = [(0, "http://one"), (946080000000 * 1000000, "http://two")] ∧
      w'.requests ≠ w.requests ++ paced f.delay.inNanoseconds w.waited (f.asks World.files w manifest)) ∧
    (let f : ImageFetcher := ⟨"m/..", .ofMilliseconds 0⟩
    let w := World.gallery [] [("http://one", "one"), ("http://two", "two")]
    let saved : ManifestEntry := ⟨"a", none, some "http://one", "/a"⟩
    let manifest := [saved, ⟨"b", none, some "http://two", "a"⟩, ⟨"c", none, some "http://two", "a/c"⟩]
    let w' := f.turn w manifest
    (∀ entry ∈ manifest, "." ∉ Path.parts entry.localPath ∧ ".." ∉ Path.parts entry.localPath) ∧
      (f.fetchAll [saved] : Attempt (StateM World) FetchReport).Succeeds w ⟨1, 0, 0, 0⟩ (f.turn w [saved]) ∧
      (f.turn w [saved]).files.read (f.target saved) = .ok "one".toUTF8 ∧
      (∃ failure, (f.fetchAll manifest : Attempt (StateM World) FetchReport).Ends w (.error failure) w') ∧
      w'.files.read (f.target saved) = .ok "two".toUTF8) := by
  constructor
  · intro f w manifest w'
    refine ⟨FileSystem.isTree_of_entries (by decide), ?_, by decide +kernel, by decide +kernel⟩
    exact ends_of_fst (eq_ok_of_toOption (by decide +kernel))
  · intro f w saved manifest w'
    refine ⟨by decide +kernel, ?_, ?_, ?_, ?_⟩
    · exact ends_of_fst (eq_ok_of_toOption (by decide +kernel))
    · exact eq_ok_of_toOption (by decide +kernel)
    · exact exists_failure_of_isNone (by decide +kernel)
    · exact eq_ok_of_toOption (by decide +kernel)

end CardIndex.ImageFetcher
