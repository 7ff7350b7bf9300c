import CardIndex.Proofs.Disk.Making
import CardIndex.Proofs.Images.Layout
import CardIndex.Proofs.Images.Tour
import Mathlib.Data.Finset.Card

namespace CardIndex

/-- The image that is served for a card. -/
def Card.image? (c : Card) (images : String → Reply) : Option ByteArray :=
  match c.assets.remote.map images with
  | some (.served image) => some image
  | _ => none

theorem Card.image?_eq_some {c : Card} {images : String → Reply} {image : ByteArray}
    (h : c.image? images = some image) : ∃ url, c.assets.remote = some url ∧ images url = .served image := by
  unfold image? at h
  split at h
  · rename_i served hreply
    obtain rfl := Option.some.inj h
    obtain ⟨url, hremote, hserved⟩ := Option.map_eq_some_iff.1 hreply
    exact ⟨url, hremote, hserved⟩
  · cases h

/-- A root that can be made, if it is not there, and that nothing is in. -/
structure FileSystem.Vacant (fs : FileSystem) (root : Path) : Prop where
  clear : ∃ front names base, fs.Clear root front names base
  empty : ∀ name below, fs.find? (fs.named root ++ name :: below) = none

namespace ImageFetcher

open Attempt AssetLayout FileSystem CardIndex.Path

theorem succeeds_writeAsset {fs made fs' : FileSystem} {path parent : Path} {image : ByteArray}
    (hparent : path.parent? = some parent) (hmade : FileSystem.makeDirectories parent fs = (.ok (), made))
    (hwrite : made.write path image = .ok fs') :
    (writeAsset path image : Attempt (StateM FileSystem) Unit).Succeeds fs () fs' := by
  unfold writeAsset
  rw [hparent]
  refine (succeeds_bind _ _ _ _ _).2 ⟨(), made, (succeeds_io _ _ _ _).2 hmade, (succeeds_io _ _ _ _).2 ?_⟩
  exact (made.run_write_ok path image fs' ()).2 hwrite

/-- After a run over some cards: nothing is there but the images of the first cards with their names. -/
structure Shows (f : ImageFetcher) (images : String → Reply) (cards : List Card) (w : World) : Prop where
  source : w.images = images
  root : ∃ front names base, w.files.Clear f.assetRoot front names base
  above : ∀ name below, name :: below <+: ["assets", "cards"] → ∀ content,
    w.files.find? (w.files.named f.assetRoot ++ name :: below) ≠ some (.file content)
  free : ∀ slug, (∀ d ∈ cards, stem d.slug ≠ stem slug) →
    w.files.find? (w.files.named f.assetRoot ++ way slug) = none
  shown : ∀ d ∈ cards, ∃ first image, cards.find? (fun e => stem e.slug = stem d.slug) = some first ∧
    first.image? images = some image ∧ w.files.read (f.target d.manifestEntry) = .ok image

/-- The report of a run for which all images are served and find their directory empty. -/
def reportOf (cards : List Card) : FetchReport :=
  let saved := (cards.map fun c => stem c.slug).toFinset.card
  ⟨saved, cards.length - saved, 0, 0⟩

section

variable {f : ImageFetcher} {images : String → Reply} {cards : List Card} {c : Card} {w : World}

/-- A card whose name another had before it finds that one's image. -/
theorem Shows.again (h : f.Shows images cards w) (hpaths : ∀ d ∈ c :: cards, d.assets.localPath = standard.path d.slug)
    {d : Card} (hd : d ∈ cards) (hname : stem d.slug = stem c.slug) :
    w.files.holds (f.target c.manifestEntry) = true ∧ f.Shows images (cards ++ [c]) w := by
  rw [List.forall_mem_cons] at hpaths
  have htarget : f.target c.manifestEntry = f.target d.manifestEntry := by
    rw [target, target, Card.manifestEntry, Card.manifestEntry, hpaths.1, hpaths.2 d hd, path_congr hname]
  obtain ⟨first, image, hfirst, himage, hread⟩ := h.shown d hd
  refine ⟨?_, h.source, h.root, h.above, ?_, ?_⟩
  · rw [htarget]
    exact holds_of_read hread
  · exact fun slug hslug => h.free slug fun e he => hslug e (List.mem_append_left _ he)
  · intro e he
    rcases List.mem_append.1 he with hbefore | hlast
    · obtain ⟨first', image', hfirst', himage', hread'⟩ := h.shown e hbefore
      exact ⟨first', image', by rw [List.find?_append, hfirst']; rfl, himage', hread'⟩
    · obtain rfl := List.mem_singleton.1 hlast
      rw [hname] at hfirst
      exact ⟨first, image, by rw [List.find?_append, hfirst]; rfl, himage, htarget ▸ hread⟩

/-- What a saved image may change: it is put where its name is, and the directories that lead there are made. -/
def Adds (root : Place) (slug : String) (image : ByteArray) (place : Place) (node : Node) : Prop :=
  (place <+: root ++ ["assets", "cards"] ∧ node = .directory) ∨ (place = root ++ way slug ∧ node = .file image)

theorem not_adds_of_ne {root place : Place} {slug : String} {image : ByteArray} (h : place ≠ root ++ way slug)
    (content : ByteArray) : ¬ Adds root slug image place (.file content) := by
  intro hadds
  rcases hadds with ⟨-, hnode⟩ | ⟨hplace, -⟩
  · cases hnode
  · exact h hplace

theorem stem_of_way {root : Place} {slug slug' : String} (h : root ++ way slug = root ++ way slug') :
    stem slug = stem slug' := by
  have hways := List.append_cancel_left h
  simp only [way, List.cons.injEq, and_true, true_and] at hways
  exact fileName_inj hways

/-- No file is added outside the two directories that the image is in. -/
theorem find?_of_adds {fs files : FileSystem} {root : Place} {slug : String} {image : ByteArray}
    (h : fs.Alters files (Adds root slug image)) {below : List String} (hbelow : below.length < (way slug).length)
    (hfree : ∀ content, fs.find? (root ++ below) ≠ some (.file content)) (content : ByteArray) :
    files.find? (root ++ below) ≠ some (.file content) := by
  have hother : root ++ below ≠ root ++ way slug := by
    intro hsame
    rw [List.append_cancel_left hsame] at hbelow
    exact Nat.lt_irrefl _ hbelow
  exact fun hfile => hfree content (((h.spares _ (not_adds_of_ne hother)).file content).1 hfile)

/-- What an image is added beside is still free for images with other names. -/
theorem find?_way_of_adds {fs files : FileSystem} {root : Place} {slug slug' : String} {image : ByteArray}
    (h : fs.Alters files (Adds root slug image)) (hne : stem slug ≠ stem slug') (hfree : fs.find? (root ++ way slug') = none) :
    files.find? (root ++ way slug') = none := by
  rcases h.found (root ++ way slug') with hsame | ⟨node, -, ⟨hupTo, -⟩ | ⟨htaken, -⟩, -⟩
  · exact hsame.trans hfree
  · have hlength := ((List.prefix_append_right_inj _).1 hupTo).length_le
    simp [way] at hlength
  · exact absurd (stem_of_way htaken).symm hne

/-- An image whose name is not taken can be saved. -/
theorem Shows.writes (h : f.Shows images cards w) {entry : ManifestEntry} {slug : String}
    (hpath : entry.localPath = standard.path slug) (hnew : ∀ d ∈ cards, stem d.slug ≠ stem slug) (image : ByteArray) :
    ∃ files, (writeAsset (f.target entry) image : Attempt (StateM FileSystem) Unit).Succeeds w.files () files ∧
      w.files.Alters files (Adds (w.files.named f.assetRoot) slug image) := by
  obtain ⟨front, names, base, hclear⟩ := h.root
  have hroot := hclear.named
  have hnone := h.free slug hnew
  have hway : way slug = ["assets", "cards"] ++ [fileName slug] := rfl
  have hnames : ∀ name ∈ way slug, IsName name := by
    simp only [way, List.forall_mem_cons]
    exact ⟨isName_of_length (by decide) (by decide), isName_of_length (by decide) (by decide), isName_fileName _, by simp⟩
  have hfree : ∀ name below, name :: below <+: way slug → ∀ content,
      w.files.find? (base ++ names ++ name :: below) ≠ some (.file content) := by
    intro name below hbelow content
    rw [← hroot]
    rcases List.prefix_concat_iff.1 (hway ▸ hbelow) with hwhole | habove
    · rw [hwhole, ← hway, hnone]
      simp
    · exact h.above name below habove content
  have htarget := hclear.append (parts_target hpath) (start_target w.files hpath) hnames hfree
  rw [hway, ← List.append_assoc] at htarget
  obtain ⟨parent, kept, hparent, habove⟩ := htarget.parent
  obtain ⟨made, hmade, hleads, halters⟩ := makeDirectories_of_clear habove
  rw [← List.append_assoc, ← hroot] at hleads halters
  have hlocate := hleads.locate_of_parent hparent (by rw [htarget.parts, ← List.append_assoc]) (isName_fileName _)
  rw [List.append_assoc, ← hway] at hlocate
  have hmadeNone : made.find? (w.files.named f.assetRoot ++ way slug) = none := by
    rcases halters.found (w.files.named f.assetRoot ++ way slug) with hsame | ⟨node, -, ⟨hupTo, -⟩, -⟩
    · exact hsame.trans hnone
    · have hlength := ((List.prefix_append_right_inj _).1 hupTo).length_le
      simp [way] at hlength
  have hwrite := write_of_locate hlocate (asksForDirectory_target hpath) image (by simp [hmadeNone])
  have hplace : w.files.named f.assetRoot ++ way slug ≠ [] := by simp [way]
  have hput := made.alters_put _ (.file image) hplace (.inl hmadeNone)
  refine ⟨_, succeeds_writeAsset hparent hmade hwrite, (halters.mono ?_).trans (hput.mono ?_)⟩
  · exact fun place node hnode => .inl hnode
  · exact fun place node hnode => .inr hnode

/-- The image of a card with a new name is saved, and the others stay. -/
theorem Shows.saved (h : f.Shows images cards w) (hpaths : ∀ d ∈ c :: cards, d.assets.localPath = standard.path d.slug)
    (hnew : ∀ d ∈ cards, stem d.slug ≠ stem c.slug) {image : ByteArray} (himage : c.image? images = some image) :
    ∃ w', Meets World.files f c.manifestEntry w (.saved image) w' ∧ f.Shows images (cards ++ [c]) w' := by
  rw [List.forall_mem_cons] at hpaths
  obtain ⟨url, hremote, hserved⟩ := Card.image?_eq_some himage
  have hpath : c.manifestEntry.localPath = standard.path c.slug := hpaths.1
  have hplace := named_target (f := f) w.files hpath
  have hmissing : w.files.holds (f.target c.manifestEntry) = false := by
    rw [← Bool.not_eq_true, holds_iff, hplace]
    exact fun hholds => hholds.2.1 (h.free c.slug hnew)
  obtain ⟨files, hwritten, halters⟩ := h.writes hpath hnew image
  obtain ⟨t, hsaved, htfiles⟩ := exists_writeAsset World.reflects_files (asked url w) hwritten
  have hw' : (f.rested t).files = files := (files_rested World.reflects_files.toWorksOn f t).trans htfiles
  have hsource : (f.rested t).images = images :=
    (Meets.saved hremote hmissing (by rw [answer_world, h.source, hserved]) hsaved).images.trans h.source
  have hnamed : files.named f.assetRoot = w.files.named f.assetRoot := halters.spares_root.named _
  refine ⟨_, .saved hremote hmissing (by rw [answer_world, h.source, hserved]) hsaved, hsource, ?_, ?_, ?_, ?_⟩
  all_goals rw [hw']
  · obtain ⟨front, names, base, hclear⟩ := h.root
    refine ⟨front, names, base, hclear.alters halters fun above habove => not_adds_of_ne ?_⟩
    intro hsame
    have hlength := congrArg List.length hsame
    have hle := habove.length_le
    rw [hclear.named] at hlength
    simp [way] at hlength
    omega
  · intro name below hbelow
    rw [hnamed]
    exact find?_of_adds halters (Nat.lt_succ_of_le hbelow.length_le) (h.above name below hbelow)
  · intro slug hslug
    rw [hnamed]
    have hbefore := h.free slug fun d hd => hslug d (List.mem_append_left _ hd)
    exact find?_way_of_adds halters (hslug c (by simp)) hbefore
  · intro d hd
    rcases List.mem_append.1 hd with hbefore | hlast
    · obtain ⟨first, image', hfirst, himage', hread⟩ := h.shown d hbefore
      refine ⟨first, image', by rw [List.find?_append, hfirst]; rfl, himage', ?_⟩
      have hother : w.files.named (f.target d.manifestEntry) ≠ w.files.named f.assetRoot ++ way c.slug := by
        intro hsame
        rw [named_target (f := f) w.files (hpaths.2 d hbefore)] at hsame
        exact hnew d hbefore (stem_of_way hsame)
      exact (halters.spares _ (not_adds_of_ne hother)).read hread
    · obtain rfl := List.mem_singleton.1 hlast
      have hnone : cards.find? (fun e => stem e.slug = stem d.slug) = none := by
        rw [List.find?_eq_none]
        intro e he
        simpa using hnew e he
      refine ⟨d, image, by rw [List.find?_append, hnone]; simp, himage, ?_⟩
      exact read_write _ _ _ _ (write_of_writeAsset hwritten)

theorem reportOf_again {d : Card} (hd : d ∈ cards) (hname : stem d.slug = stem c.slug) :
    reportOf (cards ++ [c]) = Fate.count (reportOf cards) .present := by
  have hmem : stem c.slug ∈ (cards.map fun c => stem c.slug).toFinset := by
    rw [List.mem_toFinset]
    exact hname ▸ List.mem_map_of_mem hd
  have hle := List.toFinset_card_le (cards.map fun c => stem c.slug)
  have hsame : ((cards ++ [c]).map fun c => stem c.slug).toFinset = (cards.map fun c => stem c.slug).toFinset := by
    simpa using hmem
  rw [List.length_map] at hle
  simp only [reportOf, Fate.count, hsame, List.length_append, List.length_singleton, FetchReport.mk.injEq, true_and,
    and_true]
  omega

theorem reportOf_saved (hnew : ∀ d ∈ cards, stem d.slug ≠ stem c.slug) (image : ByteArray) :
    reportOf (cards ++ [c]) = Fate.count (reportOf cards) (.saved image) := by
  have hmem : stem c.slug ∉ (cards.map fun c => stem c.slug).toFinset := by
    rw [List.mem_toFinset, List.mem_map]
    rintro ⟨d, hd, hname⟩
    exact hnew d hd hname
  have hinsert : ((cards ++ [c]).map fun c => stem c.slug).toFinset =
      insert (stem c.slug) (cards.map fun c => stem c.slug).toFinset := by
    rw [List.map_append, List.toFinset_append, Finset.union_comm]
    rfl
  have hcard := Finset.card_insert_of_notMem hmem
  rw [← hinsert] at hcard
  simp only [reportOf, Fate.count, hcard, List.length_append, List.length_singleton, FetchReport.mk.injEq, true_and,
    and_true]
  omega

/-- One more card: its image is saved, or another's with its name is there. -/
theorem Shows.step (h : f.Shows images cards w) (hpaths : ∀ d ∈ c :: cards, d.assets.localPath = standard.path d.slug)
    (hserved : (c.image? images).isSome) :
    ∃ fate w', Meets World.files f c.manifestEntry w fate w' ∧ reportOf (cards ++ [c]) = Fate.count (reportOf cards) fate ∧
      f.Shows images (cards ++ [c]) w' := by
  obtain ⟨image, himage⟩ := Option.isSome_iff_exists.1 hserved
  by_cases hnew : ∀ d ∈ cards, stem d.slug ≠ stem c.slug
  · obtain ⟨w', hmeets, hshows⟩ := h.saved hpaths hnew himage
    exact ⟨.saved image, w', hmeets, reportOf_saved hnew image, hshows⟩
  · simp only [not_forall, not_not] at hnew
    obtain ⟨d, hd, hname⟩ := hnew
    obtain ⟨url, hremote, -⟩ := Card.image?_eq_some himage
    obtain ⟨hholds, hshows⟩ := h.again hpaths hd hname
    exact ⟨.present, w, .present hremote hholds, reportOf_again hd hname, hshows⟩

theorem Shows.run (rest : List Card) (h : f.Shows images cards w)
    (hpaths : ∀ d ∈ cards ++ rest, d.assets.localPath = standard.path d.slug)
    (hserved : ∀ d ∈ rest, (d.image? images).isSome) :
    ∃ w', ((rest.map Card.manifestEntry).foldlM f.fetchEntry (reportOf cards) :
        Attempt (StateM World) FetchReport).Succeeds w (reportOf (cards ++ rest)) w' ∧
      f.Shows images (cards ++ rest) w' := by
  induction rest generalizing cards w with
  | nil =>
    rw [List.append_nil]
    exact ⟨w, by simp, h⟩
  | cons c rest ih =>
    rw [List.forall_mem_cons] at hserved
    have hstep : ∀ d ∈ c :: cards, d.assets.localPath = standard.path d.slug := by
      intro d hd
      apply hpaths
      rcases List.mem_cons.1 hd with rfl | hbefore
      · simp
      · exact List.mem_append_left _ hbefore
    obtain ⟨fate, mid, hmeets, hreport, hshows⟩ := h.step hstep hserved.1
    rw [List.append_cons cards c rest] at hpaths ⊢
    obtain ⟨w', hrun, hshows'⟩ := ih hshows hpaths hserved.2
    refine ⟨w', ?_, hshows'⟩
    rw [List.map_cons, List.foldlM_cons, succeeds_bind]
    exact ⟨_, mid, (succeeds_fetchEntry World.reflects_files f _ _ _ _ _).2 ⟨fate, hmeets, hreport⟩, hrun⟩

end

/-- If an image is served for every card and the asset root is empty, one image is saved for each name that the cards'
slugs give, and it is that of the first card with the name. So if no two slugs give the same name, every card has its
own image. -/
theorem fetchAll_illustrates (f : ImageFetcher) (dump : Dump) (w : World) (hroot : w.files.Vacant f.assetRoot)
    (hserved : ∀ c ∈ dump.cards, (c.image? w.images).isSome) :
    ∃ w', (f.fetchAll dump.manifest : Attempt (StateM World) FetchReport).Succeeds w (reportOf dump.cards) w' ∧
      (∀ c ∈ dump.cards, ∃ first image, dump.cards.find? (fun d => stem d.slug = stem c.slug) = some first ∧
        first.image? w.images = some image ∧ w'.files.read (f.target c.manifestEntry) = .ok image) ∧
      ((dump.cards.map fun c => stem c.slug).Nodup → reportOf dump.cards = ⟨dump.cards.length, 0, 0, 0⟩ ∧
        ∀ c ∈ dump.cards, ∀ image, c.image? w.images = some image →
          w'.files.read (f.target c.manifestEntry) = .ok image) := by
  have hstart : f.Shows w.images [] w := by
    refine ⟨rfl, hroot.clear, ?_, fun slug _ => hroot.empty "assets" ["cards", fileName slug], by simp⟩
    intro name below hbelow content
    rw [hroot.empty]
    simp
  have hpaths : ∀ d ∈ [] ++ dump.cards, d.assets.localPath = standard.path d.slug := fun d hd => (Dump.exists_slug hd).2
  obtain ⟨w', hrun, hshows⟩ := hstart.run dump.cards hpaths hserved
  refine ⟨w', hrun, hshows.shown, fun hdistinct => ⟨?_, ?_⟩⟩
  · have hcard := List.toFinset_card_of_nodup hdistinct
    rw [List.length_map] at hcard
    simp [reportOf, hcard]
  · intro c hc image himage
    obtain ⟨first, image', hfirst, himage', hread⟩ := hshows.shown c hc
    obtain ⟨hname, hmem⟩ := And.intro (List.find?_some hfirst) (List.mem_of_find?_eq_some hfirst)
    obtain rfl := List.inj_on_of_nodup_map hdistinct hmem hc (by simpa using hname)
    rw [himage] at himage'
    exact Option.some.inj himage' ▸ hread

theorem vacant_directory (images : List (String × String)) :
    (World.gallery [(["r"], .directory)] images).files.Vacant "r" := by
  have hclear : (World.gallery [(["r"], .directory)] images).files.Clear "r" ["r"] [] ["r"] := by
    refine ⟨by decide +kernel, by simp, rfl, rfl, fun way hway content => ?_⟩
    obtain rfl := List.prefix_nil.1 hway
    simp [World.gallery, find?]
  refine ⟨⟨_, _, _, hclear⟩, fun name below => ?_⟩
  rw [hclear.named]
  simp [World.gallery, find?, List.lookup_cons]

theorem fetchAll_illustrates_of_distinct_names :
    let f : ImageFetcher := ⟨"r", .ofMilliseconds 0⟩
    let dump : Dump := ⟨["slug", "image"],
      [[.string "a/b", .string "http://one"], [.string "\u00e9", .string "http://two"]]⟩
    let w := World.gallery [(["r"], .directory)] [("http://one", "one"), ("http://two", "two")]
    ∃ w', (f.fetchAll dump.manifest : Attempt (StateM World) FetchReport).Succeeds w ⟨2, 0, 0, 0⟩ w' ∧
      w'.files.read "r/assets/cards/a-b.webp" = .ok "one".toUTF8 ∧
      w'.files.read "r/assets/cards/-.webp" = .ok "two".toUTF8 := by
  intro f dump w
  have hserved : ∀ c ∈ dump.cards, (c.image? w.images).isSome := by decide +kernel
  obtain ⟨w', hrun, -, hown⟩ := fetchAll_illustrates f dump w (vacant_directory _) hserved
  obtain ⟨hreport, hown⟩ := hown (by decide +kernel)
  let first := Card.ofRow [("slug", .string "a/b"), ("image", .string "http://one")] 0
  let second := Card.ofRow [("slug", .string "\u00e9"), ("image", .string "http://two")] 1
  have hcards : dump.cards = [first, second] := rfl
  rw [hreport] at hrun
  have hfirst := hown first (by simp [hcards]) "one".toUTF8 (by decide +kernel)
  have hsecond := hown second (by simp [hcards]) "two".toUTF8 (by decide +kernel)
  have hpath : f.target first.manifestEntry = "r/assets/cards/a-b.webp" := by decide +kernel
  have hpath' : f.target second.manifestEntry = "r/assets/cards/-.webp" := by decide +kernel
  rw [hpath] at hfirst
  rw [hpath'] at hsecond
  exact ⟨w', hrun, hfirst, hsecond⟩

/-- Two slugs can give the same name. Then the second card is skipped, and what is kept for it is the first one's
image. -/
theorem fetchAll_shares_image :
    let f : ImageFetcher := ⟨"r", .ofMilliseconds 0⟩
    let dump : Dump := ⟨["slug", "image"],
      [[.string "a b", .string "http://one"], [.string "a-b", .string "http://two"]]⟩
    let w := World.gallery [(["r"], .directory)] [("http://one", "one"), ("http://two", "two")]
    let w' := (Id.run ((f.fetchAll dump.manifest : Attempt (StateM World) FetchReport).run.run w)).2
    (dump.cards.map (·.slug)).Nodup ∧ w.files.Vacant f.assetRoot ∧
      dump.cards.map (·.image? w.images) = [some "one".toUTF8, some "two".toUTF8] ∧
      (f.fetchAll dump.manifest : Attempt (StateM World) FetchReport).Succeeds w ⟨1, 1, 0, 0⟩ w' ∧
      dump.manifest.map (fun entry => (w'.files.read (f.target entry)).toOption) =
        [some "one".toUTF8, some "one".toUTF8] := by
  intro f dump w w'
  have hmanifest : dump.manifest = [⟨"row-1", none, some "http://one", "assets/cards/a-b.webp"⟩,
      ⟨"row-2", none, some "http://two", "assets/cards/a-b.webp"⟩] := by decide +kernel
  refine ⟨by decide +kernel, vacant_directory _, by decide +kernel, ends_of_fst (eq_ok_of_toOption ?_), ?_⟩
  · rw [hmanifest]
    decide +kernel
  · simp only [w', hmanifest]
    decide +kernel

end ImageFetcher

end CardIndex
