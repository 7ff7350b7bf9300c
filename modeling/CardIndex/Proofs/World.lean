import CardIndex.Proofs.Attempt
import CardIndex.Proofs.Disk.Alteration
import CardIndex.World

namespace CardIndex

theorem FileSystem.decode_toUTF8 (s : String) : decode s.toUTF8 = .ok s := by
  have hvalid : s.toUTF8.IsValidUTF8 := s.isValidUTF8
  unfold decode String.fromUTF8?
  rw [dif_pos hvalid]
  rfl

theorem FileSystem.decode_of_no_text {content : ByteArray} (h : ∀ text : String, content ≠ text.toUTF8) :
    decode content = .error .invalidText := by
  unfold decode
  split
  · rename_i text htext
    unfold String.fromUTF8? at htext
    split at htext
    · rename_i hvalid
      exact absurd rfl (h (String.ofByteArray content hvalid))
    · cases htext
  · rfl

namespace World

/-- The time stays, and of the files what is spared. -/
structure Spares (w w' : World) (place : Place) : Prop where
  files : w.files.Spares w'.files place
  now : w'.now = w.now

theorem Spares.refl (w : World) (place : Place) : Spares w w place := ⟨FileSystem.Spares.refl _ _, rfl⟩

theorem Spares.trans {w w' w'' : World} {place : Place} (h : Spares w w' place) (h' : Spares w' w'' place) :
    Spares w w'' place :=
  ⟨h.files.trans h'.files, h'.now.trans h.now⟩

@[simp] theorem run_holds (path : Path) (w : World) :
    Id.run ((Disk.holds path : StateM World Bool).run w) = (w.files.holds path, w) := rfl

@[simp] theorem run_readText (path : Path) (w : World) :
    Id.run ((Disk.readText path : StateM World (Except IoError String)).run w) =
      ((w.files.read path).bind FileSystem.decode, w) := rfl

theorem run_onFiles {α : Type} {operation : StateM FileSystem α} {w w' : World} {a : α}
    (h : Id.run ((onFiles operation).run w) = (a, w')) :
    operation w.files = (a, w'.files) ∧ w' = { w with files := w'.files } := by
  obtain ⟨ha, rfl⟩ := Prod.mk.inj h
  exact ⟨Prod.ext ha rfl, rfl⟩

theorem run_change (operation : FileSystem → Except IoError FileSystem) (w w' : World)
    (h : Id.run ((onFiles (FileSystem.change operation)).run w) = (.ok (), w')) :
    ∃ files, operation w.files = .ok files ∧ w' = { w with files } := by
  obtain ⟨hchange, hworld⟩ := run_onFiles h
  exact ⟨w'.files, (FileSystem.change_ok_iff _ _ _ _).1 hchange, hworld⟩

theorem run_write {path : Path} {content : ByteArray} {w w' : World}
    (h : Id.run ((Disk.write path content : StateM World _).run w) = (.ok (), w')) :
    ∃ files, w.files.write path content = .ok files ∧ w' = { w with files } :=
  run_change (·.write path content) w w' h

/-- A write that fails changes nothing. -/
theorem run_write_error {path : Path} {content : ByteArray} {w w' : World} {e : IoError}
    (h : Id.run ((Disk.write path content : StateM World _).run w) = (.error e, w')) : w' = w := by
  obtain ⟨hchange, hworld⟩ := run_onFiles h
  rw [hworld, ((FileSystem.change_error_iff _ _ _ _).1 hchange).2]

theorem run_move {source target : Path} {w w' : World}
    (h : Id.run ((Disk.move source target : StateM World _).run w) = (.ok (), w')) :
    ∃ files, w.files.move source target = .ok files ∧ w' = { w with files } :=
  run_change (·.move source target) w w' h

theorem spares_makeDirectories {path : Path} {r : Except IoError Unit} {w w' : World} (place : Place)
    (h : Id.run ((Disk.makeDirectories path : StateM World _).run w) = (r, w')) : Spares w w' place := by
  have hworld : w' = { w with files := (FileSystem.makeDirectories path w.files).2 } := (Prod.mk.inj h).2.symm
  subst hworld
  exact ⟨FileSystem.spares_makeDirectories path place w.files, rfl⟩

/-- An operation on the world that a state has in it. -/
def within {σ α : Type} (world : σ → World) (put : σ → World → σ) (operation : StateM World α) : StateM σ α := fun s =>
  let (a, w) := operation (world s)
  (a, put s w)

/-- A world with these files, in which some addresses have an image and all others none. -/
def gallery (entries : List (Place × Node)) (images : List (String × String)) : World where
  files := ⟨entries, []⟩
  tables := []
  environment := []
  images url := match images.lookup url with
    | some image => .served image.toUTF8
    | none => .refused
  requests := []
  now := ⟨⟨2004, 2, 29, by decide, by decide, by decide⟩, 12, 34, 56, 78, by decide, by decide, by decide, by decide⟩
  pauses := []

section

variable {α β : Type}

/-- A program on worlds does with the files what another does, and nothing else. -/
def OnFiles (x : Attempt (StateM World) α) (y : Attempt (StateM FileSystem) α) : Prop :=
  ∀ w, Id.run (x.run.run w) = ((Id.run (y.run.run w.files)).1, { w with files := (Id.run (y.run.run w.files)).2 })

theorem onFiles_pure (a : α) : OnFiles (pure a) (pure a) := fun _ => rfl

theorem onFiles_throw (f : Failure) : OnFiles (throw f : Attempt (StateM World) α) (throw f) := fun _ => rfl

theorem onFiles_lift (operation : StateM FileSystem α) :
    OnFiles (liftM (onFiles operation) : Attempt (StateM World) α) (liftM operation) := fun _ => rfl

theorem onFiles_io (operation : StateM FileSystem (Except IoError α)) :
    OnFiles (Attempt.io (onFiles operation)) (Attempt.io operation) := fun _ => rfl

theorem OnFiles.bind {x : Attempt (StateM World) α} {y : Attempt (StateM FileSystem) α}
    {f : α → Attempt (StateM World) β} {g : α → Attempt (StateM FileSystem) β} (hx : OnFiles x y)
    (hf : ∀ a, OnFiles (f a) (g a)) : OnFiles (x >>= f) (y >>= g) := by
  intro w
  rw [Attempt.run_bind, Attempt.run_bind, hx w]
  rcases Id.run (y.run.run w.files) with ⟨e | a, files⟩
  · rfl
  · exact hf a _

theorem OnFiles.ends {x : Attempt (StateM World) α} {y : Attempt (StateM FileSystem) α} (h : OnFiles x y) {w w' : World}
    {r : Except Failure α} (hx : x.Ends w r w') : y.Ends w.files r w'.files := by
  have hfiles := (h w).symm.trans hx
  obtain ⟨rfl, rfl⟩ := Prod.mk.inj hfiles
  rfl

end

end World

end CardIndex
