import CardIndex.Proofs.Images.Layout
import CardIndex.Proofs.Images.Tour

namespace CardIndex

namespace ImageFetcher

open FileSystem AssetLayout

section

variable {σ : Type} [Disk (StateM σ)] [Clock (StateM σ)] [ImageSource (StateM σ)] {files : σ → FileSystem}
  {inv : FileSystem → Prop}

/-- What holds of the files is kept if the directories above a path and a file at its end may be made. -/
theorem preserves_files_writeAsset (hfiles : WorksOn files) (path : Path) (image : ByteArray)
    (hmake : ∀ parent fs, path.parent? = some parent → inv fs → inv (FileSystem.makeDirectories parent fs).2)
    (hwrite : ∀ fs fs', inv fs → fs.write path image = .ok fs' → inv fs') :
    Preserves (fun s => inv (files s)) (writeAsset path image) := by
  refine preserves_writeAsset (fun parent s hparent hs => ?_) fun s hs => ?_
  · rw [hfiles.makeDirectories]
    exact hmake parent _ hparent hs
  · rw [hfiles.write]
    cases hresult : change (·.write path image) (files s) with
    | mk result fs' =>
      cases result with
      | ok u => exact hwrite _ fs' hs ((change_ok_iff _ _ fs' u).1 hresult)
      | error e =>
        rw [((change_error_iff _ _ fs' e).1 hresult).2]
        exact hs

theorem preserves_fetchEntry (hfiles : WorksOn files) (f : ImageFetcher) (report : FetchReport) (entry : ManifestEntry)
    (hmake : ∀ parent fs, (f.target entry).parent? = some parent → inv fs →
      inv (FileSystem.makeDirectories parent fs).2)
    (hwrite : ∀ image fs fs', inv fs → fs.write (f.target entry) image = .ok fs' → inv fs') :
    Preserves (fun s => inv (files s)) (f.fetchEntry report entry) := by
  have hidle {α : Type} {operation : StateM σ α} (h : ∀ s, files (Id.run (operation.run s)).2 = files s) :
      Preserves (fun s => inv (files s)) (liftM operation : Attempt (StateM σ) α) :=
    preserves_lift fun s hs => (h s).symm ▸ hs
  have hrest (counted : FetchReport) : Preserves (fun s => inv (files s)) (if f.delay.isZero then pure counted else do
      liftM (Clock.pause f.delay : StateM σ Unit)
      pure counted : Attempt (StateM σ) FetchReport) := by
    split
    · exact preserves_pure counted
    · exact (hidle (hfiles.pause f.delay)).bind fun _ => preserves_pure counted
  have hrequest (url : String) : Preserves (fun s => inv (files s)) (f.request entry url report) := by
    unfold request
    refine (hidle (hfiles.fetch url)).bind fun reply => ?_
    cases reply with
    | refused => exact hrest _
    | failed => exact hrest _
    | served image =>
      exact (preserves_files_writeAsset hfiles (f.target entry) image hmake (hwrite image)).bind fun _ => hrest _
  unfold fetchEntry
  cases entry.remote with
  | none => exact preserves_pure _
  | some url =>
    refine (hidle (hfiles.holds (f.target entry))).bind fun held => ?_
    split
    · exact preserves_pure _
    · exact hrequest url

theorem preserves_fetchAll (hfiles : WorksOn files) (f : ImageFetcher) (manifest : List ManifestEntry)
    (hmake : ∀ entry ∈ manifest, ∀ parent fs, (f.target entry).parent? = some parent → inv fs →
      inv (FileSystem.makeDirectories parent fs).2)
    (hwrite : ∀ entry ∈ manifest, ∀ image fs fs', inv fs → fs.write (f.target entry) image = .ok fs' → inv fs') :
    Preserves (fun s => inv (files s)) (f.fetchAll manifest) :=
  Preserves.foldlM manifest (fun entry hentry report =>
    preserves_fetchEntry hfiles f report entry (hmake entry hentry) (hwrite entry hentry)) .empty

end

/-- What may be new in an asset root: images of cards, and the directories that lead to them. -/
inductive Within (fs : FileSystem) (root : Path) : Place → Node → Prop
  | image (stem : String) (content : ByteArray) (nonempty : stem ≠ "") (safe : ∀ c ∈ stem.toList, isPathSafe c = true) :
      Within fs root (fs.named root ++ ["assets", "cards", stem ++ ".webp"]) (.file content)
  | above (place : Place) (passed : fs.Passes root place) : Within fs root place .directory
  | assets : Within fs root (fs.named root ++ ["assets"]) .directory
  | cards : Within fs root (fs.named root ++ ["assets", "cards"]) .directory

/-- Whatever the cells of a dump hold and whatever the source answers, a run over its cards puts nothing into the files
but images of cards in the asset root and the directories that lead there, also if it fails. -/
theorem fetchAll_confined {σ : Type} [Disk (StateM σ)] [Clock (StateM σ)] [ImageSource (StateM σ)]
    {files : σ → FileSystem} (hfiles : WorksOn files) (f : ImageFetcher) (dump : Dump) (s : σ) :
    (files s).Alters (files (Id.run ((f.fetchAll dump.manifest : Attempt (StateM σ) FetchReport).run.run s)).2)
      (Within (files s) f.assetRoot) := by
  have hslug : ∀ entry ∈ dump.manifest, ∃ slug, slug ≠ "" ∧ entry.localPath = standard.path slug := by
    intro entry hentry
    obtain ⟨c, hc, rfl⟩ := List.mem_map.1 hentry
    obtain ⟨hne, hpath⟩ := Dump.exists_slug hc
    exact ⟨c.slug, hne, hpath⟩
  refine @preserves_fetchAll σ _ _ _ files (fun fs => (files s).Alters fs (Within (files s) f.assetRoot)) hfiles f
    dump.manifest ?_ ?_ s (Alters.refl _ _)
  · intro entry hentry parent fs hparent halters
    obtain ⟨slug, -, hpath⟩ := hslug entry hentry
    refine halters.trans ((alters_makeDirectories parent fs).mono ?_)
    intro place node hnode
    obtain ⟨hpasses, rfl⟩ := hnode
    have hbefore := hpasses.of_workingDirectory halters.workingDirectory
    rcases passes_target_parent hpath hparent hbefore with habove | rfl | rfl
    · exact .above place habove
    · exact .assets
    · exact .cards
  · intro entry hentry image fs fs' halters hwritten
    obtain ⟨slug, hne, hpath⟩ := hslug entry hentry
    refine halters.trans ((alters_write hwritten).mono ?_)
    intro place node hnode
    obtain ⟨rfl, rfl⟩ := hnode
    rw [halters.spares_root.named, named_target _ hpath]
    exact .image (stem slug) image (stem_ne_empty hne) (isPathSafe_stem slug)

/-- One slug climbs out of the asset root, and one starts at the root of all files. -/
theorem fetchAll_confined_of_climbing_slugs :
    let f : ImageFetcher := ⟨"r", .ofMilliseconds 0⟩
    let dump : Dump := ⟨["slug", "image"], [[.string "../../x", .string "http://one"],
      [.string "/\u00e9", .string "http://two"]]⟩
    let w := World.gallery [(["r"], .directory), (["x.webp"], .file "old".toUTF8)]
      [("http://one", "one"), ("http://two", "two")]
    let w' := (Id.run ((f.fetchAll dump.manifest : Attempt (StateM World) FetchReport).run.run w)).2
    w.files.Alters w'.files (Within w.files "r") ∧
      w'.files.read "r/assets/cards/------x.webp" = .ok "one".toUTF8 ∧
      w'.files.read "r/assets/cards/--.webp" = .ok "two".toUTF8 := by
  intro f dump w w'
  refine ⟨fetchAll_confined World.reflects_files.toWorksOn f dump w, ?_, ?_⟩
  · exact eq_ok_of_toOption (by decide +kernel)
  · exact eq_ok_of_toOption (by decide +kernel)

end ImageFetcher

end CardIndex
