import CardIndex.Proofs.World

namespace CardIndex

section

variable {σ : Type} [Disk (StateM σ)] [Clock (StateM σ)]

/-- The files of a state whose disk may fail at any time, for reasons of its own. What succeeds has been done. What fails
has changed no file, but for a write that breaks off: its file holds the beginning of what was to be written. -/
structure Brittle (files : σ → FileSystem) : Prop where
  holds : ∀ path s, files (Id.run ((Disk.holds path : StateM σ Bool).run s)).2 = files s
  read : ∀ path s, files (Id.run ((Disk.read path : StateM σ (Except IoError ByteArray)).run s)).2 = files s
  found : ∀ path s s' content, Id.run ((Disk.read path : StateM σ (Except IoError ByteArray)).run s) = (.ok content, s') →
    (files s).read path = .ok content
  makeDirectories : ∀ path s place,
    (files s).Spares (files (Id.run ((Disk.makeDirectories path : StateM σ (Except IoError Unit)).run s)).2) place
  written : ∀ path content s s', Id.run ((Disk.write path content : StateM σ (Except IoError Unit)).run s) = (.ok (), s') →
    (files s).write path content = .ok (files s')
  brokenOff : ∀ path content s s' e,
    Id.run ((Disk.write path content : StateM σ (Except IoError Unit)).run s) = (.error e, s') →
      files s' = files s ∨ ∃ n, (files s).write path (content.extract 0 n) = .ok (files s')
  now : ∀ s, files (Id.run ((Clock.now : StateM σ Timestamp).run s)).2 = files s

/-- No write breaks off: one that fails has changed nothing. -/
def WritesWhole (files : σ → FileSystem) : Prop :=
  ∀ path content s s' e, Id.run ((Disk.write path content : StateM σ (Except IoError Unit)).run s) = (.error e, s') →
    files s' = files s

end

theorem World.brittle : Brittle World.files where
  holds _ _ := rfl
  read _ _ := rfl
  found _ _ _ _ h := (Prod.mk.inj h).1
  makeDirectories path w place := FileSystem.spares_makeDirectories path place w.files
  written _ _ _ _ h := by
    obtain ⟨files, hfiles, rfl⟩ := World.run_write h
    exact hfiles
  brokenOff _ _ _ _ _ h := .inl (congrArg World.files (World.run_write_error h))
  now _ := rfl

theorem World.writesWhole : WritesWhole World.files := fun _ _ _ _ _ h => congrArg World.files (World.run_write_error h)

/-- A world on a disk that is about to fail: for each write to come, after how many bytes it breaks off and why, or that
it does not. -/
structure Faulty where
  world : World
  breaks : List (Option (Nat × IoError))

namespace Faulty

def onWorld {α : Type} (operation : StateM World α) : StateM Faulty α :=
  World.within Faulty.world (fun t world => { t with world }) operation

/-- The file is emptied first and then written as far as it goes. -/
def breakOff (path : Path) (content : ByteArray) (length : Nat) (reason : IoError) :
    StateM FileSystem (Except IoError Unit) := fun fs =>
  match fs.write path (content.extract 0 length) with
  | .ok fs => (.error reason, fs)
  | .error e => (.error e, fs)

/-- The next write, which does not break off or does. -/
def write (path : Path) (content : ByteArray) : Option (Nat × IoError) → StateM World (Except IoError Unit)
  | none => Disk.write path content
  | some (length, reason) => World.onFiles (breakOff path content length reason)

instance : Disk (StateM Faulty) where
  currentDirectory := onWorld Disk.currentDirectory
  holds path := onWorld (Disk.holds path)
  read path := onWorld (Disk.read path)
  write path content := fun t =>
    let (result, world) := write path content (t.breaks.headD none) t.world
    (result, ⟨world, t.breaks.tail⟩)
  makeDirectories path := onWorld (Disk.makeDirectories path)
  move source target := onWorld (Disk.move source target)

instance : Clock (StateM Faulty) where
  now := onWorld Clock.now
  pause d := onWorld (Clock.pause d)

theorem run_write {path : Path} {content : ByteArray} {t t' : Faulty} {result : Except IoError Unit}
    (h : Id.run ((Disk.write path content : StateM Faulty (Except IoError Unit)).run t) = (result, t')) :
    Id.run ((write path content (t.breaks.headD none)).run t.world) = (result, t'.world) := by
  obtain ⟨hresult, rfl⟩ := Prod.mk.inj h
  exact Prod.ext hresult rfl

theorem breakOff_cases {path : Path} {content : ByteArray} {length : Nat} {reason : IoError} {fs fs' : FileSystem}
    {result : Except IoError Unit} (h : breakOff path content length reason fs = (result, fs')) :
    (∃ e, result = .error e) ∧ (fs' = fs ∨ fs.write path (content.extract 0 length) = .ok fs') := by
  unfold breakOff at h
  split at h
  · rename_i written hwritten
    obtain ⟨rfl, rfl⟩ := Prod.mk.inj h
    exact ⟨⟨reason, rfl⟩, .inr hwritten⟩
  · rename_i e _
    obtain ⟨rfl, rfl⟩ := Prod.mk.inj h
    exact ⟨⟨e, rfl⟩, .inl rfl⟩

theorem run_broken {path : Path} {content : ByteArray} {broken : Nat × IoError} {w w' : World}
    {result : Except IoError Unit} (h : Id.run ((write path content (some broken)).run w) = (result, w')) :
    breakOff path content broken.1 broken.2 w.files = (result, w'.files) :=
  (World.run_onFiles (show Id.run ((World.onFiles (breakOff path content broken.1 broken.2)).run w) = _ from h)).1

theorem brittle : Brittle fun t : Faulty => t.world.files where
  holds _ _ := rfl
  read _ _ := rfl
  found _ _ _ _ h := (Prod.mk.inj h).1
  makeDirectories path t place := FileSystem.spares_makeDirectories path place t.world.files
  written path content t t' h := by
    have hrun := run_write h
    cases hnext : t.breaks.headD none with
    | none =>
      rw [hnext] at hrun
      exact World.brittle.written path content t.world t'.world hrun
    | some broken =>
      rw [hnext] at hrun
      obtain ⟨⟨e, he⟩, -⟩ := breakOff_cases (run_broken hrun)
      cases he
  brokenOff path content t t' e h := by
    have hrun := run_write h
    cases hnext : t.breaks.headD none with
    | none =>
      rw [hnext] at hrun
      exact World.brittle.brokenOff path content t.world t'.world e hrun
    | some broken =>
      rw [hnext] at hrun
      obtain ⟨-, hfiles⟩ := breakOff_cases (run_broken hrun)
      exact hfiles.imp_right fun hwritten => ⟨broken.1, hwritten⟩
  now _ := rfl

end Faulty

end CardIndex
