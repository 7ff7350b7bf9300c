import CardIndex.Disk.Basic
import CardIndex.Proofs.Disk.Path

namespace CardIndex.FileSystem

/-- The step of a path to its next part, whatever the directories are. -/
def walk (place : Place) (part : String) : Place :=
  if part = "." then place else if part = ".." then place.dropLast else place ++ [part]

/-- The place that a path names. -/
def named (fs : FileSystem) (path : Path) : Place := path.parts.foldl walk (fs.start path)

/-- Where no directory is, there is not the root. -/
theorem ne_nil_of_find? {fs : FileSystem} {place : Place} (h : fs.find? place ≠ some .directory) :
    place ≠ [] := by
  rintro rfl
  exact h rfl

theorem find?_of_isDirectoryAt {fs : FileSystem} {place : Place} (h : fs.isDirectoryAt place = false) :
    fs.find? place ≠ some .directory := by
  intro hdirectory
  rw [isDirectoryAt, hdirectory] at h
  cases h

theorem lookup_filter (entries : List (Place × Node)) (place other : Place) (h : other ≠ place) :
    (entries.filter (·.1 ≠ place)).lookup other = entries.lookup other := by
  induction entries with
  | nil => rfl
  | cons e es ih =>
    obtain ⟨key, node⟩ := e
    by_cases hkey : key = place
    · have hne : (other == key) = false := beq_eq_false_iff_ne.mpr (hkey ▸ h)
      rw [List.filter_cons_of_neg (by simp [hkey]), ih]
      rw [List.lookup_cons, hne]
    · rw [List.filter_cons_of_pos (by simp [hkey]), List.lookup_cons, List.lookup_cons, ih]

theorem find?_remove (fs : FileSystem) (place other : Place) (h : other ≠ place) :
    (fs.remove place).find? other = fs.find? other := by
  unfold find? remove
  rw [lookup_filter _ _ _ h]

theorem find?_put (fs : FileSystem) (place other : Place) (node : Node) (hplace : place ≠ []) :
    (fs.put place node).find? other = if other = place then some node else fs.find? other := by
  by_cases h : other = place
  · subst h
    rw [if_pos rfl, find?, if_neg hplace, put]
    simp
  · have hne : (other == place) = false := beq_eq_false_iff_ne.mpr h
    have hremove := fs.find?_remove place other h
    rw [if_neg h, ← hremove]
    simp [find?, put, List.lookup_cons, hne]

theorem enter_ok (fs : FileSystem) (place p : Place) :
    fs.enter place = .ok p ↔ p = place ∧ fs.find? place = some .directory := by
  unfold enter
  cases fs.find? place with
  | none => simp
  | some node =>
    cases node with
    | directory => simp [eq_comm]
    | file content => simp

/-- A path is followed to the place that it names, if at all. -/
theorem step_ok (fs : FileSystem) (place p : Place) (part : String) :
    fs.step place part = .ok p ↔ p = walk place part ∧ fs.find? place = some .directory := by
  unfold step walk
  cases henter : fs.enter place with
  | error e =>
    have hnone : fs.find? place ≠ some .directory := by
      intro h
      rw [(fs.enter_ok place place).2 ⟨rfl, h⟩] at henter
      cases henter
    simp [hnone, bind, Except.bind]
  | ok q =>
    obtain ⟨rfl, hdirectory⟩ := (fs.enter_ok place q).1 henter
    simp only [bind, Except.bind, hdirectory, and_true]
    split
    · simp [eq_comm]
    split <;> simp [eq_comm]

/-- The working directory and all directories stay, and what is at a place is the same file as before or, as
before, none. -/
structure Spares (fs fs' : FileSystem) (place : Place) : Prop where
  workingDirectory : fs'.workingDirectory = fs.workingDirectory
  directory : ∀ p, fs.find? p = some .directory → fs'.find? p = some .directory
  file : ∀ content, fs'.find? place = some (.file content) ↔ fs.find? place = some (.file content)

namespace Spares

variable {fs fs' fs'' : FileSystem} {place : Place}

theorem refl (fs : FileSystem) (place : Place) : Spares fs fs place := ⟨rfl, fun _ h => h, fun _ => Iff.rfl⟩

theorem trans (h : Spares fs fs' place) (h' : Spares fs' fs'' place) : Spares fs fs'' place :=
  ⟨h'.workingDirectory.trans h.workingDirectory, fun p hp => h'.directory p (h.directory p hp),
    fun content => (h'.file content).trans (h.file content)⟩

theorem start (h : Spares fs fs' place) (path : Path) : fs'.start path = fs.start path := by
  rw [FileSystem.start, FileSystem.start, h.workingDirectory]

theorem named (h : Spares fs fs' place) (path : Path) : fs'.named path = fs.named path := by
  rw [FileSystem.named, FileSystem.named, h.start]

theorem foldlM_step (h : Spares fs fs' place) (parts : List String) (p q : Place)
    (hq : parts.foldlM fs.step p = .ok q) : parts.foldlM fs'.step p = .ok q := by
  induction parts generalizing p with
  | nil => exact hq
  | cons part parts ih =>
    rw [List.foldlM_cons] at hq ⊢
    cases hstep : fs.step p part with
    | error e => rw [hstep] at hq; cases hq
    | ok r =>
      rw [hstep] at hq
      obtain ⟨hr, hdirectory⟩ := (fs.step_ok p r part).1 hstep
      rw [(fs'.step_ok p r part).2 ⟨hr, h.directory p hdirectory⟩]
      exact ih r hq

/-- Where directories stay, a path that could be followed can be followed. -/
theorem locate (h : Spares fs fs' place) (path : Path) (q : Place) (hq : fs.locate path = .ok q) :
    fs'.locate path = .ok q := by
  unfold FileSystem.locate at *
  split at hq
  · cases hq
  · rename_i hne
    rw [if_neg hne, h.start]
    exact h.foldlM_step path.parts _ q hq

end Spares

theorem foldlM_step_named (fs : FileSystem) (parts : List String) (p q : Place)
    (h : parts.foldlM fs.step p = .ok q) : q = parts.foldl walk p := by
  induction parts generalizing p with
  | nil => exact (Except.ok.inj h).symm
  | cons part parts ih =>
    rw [List.foldlM_cons] at h
    cases hstep : fs.step p part with
    | error e => rw [hstep] at h; cases h
    | ok r =>
      rw [hstep] at h
      obtain ⟨hr, -⟩ := (fs.step_ok p r part).1 hstep
      rw [List.foldl_cons, ← hr]
      exact ih r h

theorem locate_named (fs : FileSystem) (path : Path) (place : Place) (h : fs.locate path = .ok place) :
    place = fs.named path := by
  unfold locate at h
  split at h
  · cases h
  · exact fs.foldlM_step_named path.parts _ place h

/-- A file is read where the path leads to it and does not ask for a directory. -/
theorem read_ok (fs : FileSystem) (path : Path) (content : ByteArray) :
    fs.read path = .ok content ↔ fs.locate path = .ok (fs.named path) ∧ path.asksForDirectory = false ∧
      fs.find? (fs.named path) = some (.file content) := by
  unfold read follow
  cases hlocate : fs.locate path with
  | error e => simp [bind, Except.bind]
  | ok place =>
    obtain rfl := fs.locate_named path place hlocate
    cases hasks : path.asksForDirectory with
    | true =>
      cases henter : fs.enter (fs.named path) with
      | error e => simp [bind, Except.bind, henter]
      | ok p =>
        obtain ⟨rfl, hdirectory⟩ := (fs.enter_ok _ p).1 henter
        simp [bind, Except.bind, henter, hdirectory]
    | false =>
      cases hfind : fs.find? (fs.named path) with
      | none => simp [bind, Except.bind, hfind]
      | some node =>
        cases node with
        | directory => simp [bind, Except.bind, hfind]
        | file c => simp [bind, Except.bind, hfind]

/-- A path holds something where it leads to that, and to a directory if it asks for one. -/
theorem holds_iff (fs : FileSystem) (path : Path) :
    fs.holds path = true ↔ fs.locate path = .ok (fs.named path) ∧ fs.find? (fs.named path) ≠ none ∧
      (path.asksForDirectory = true → fs.find? (fs.named path) = some .directory) := by
  unfold holds follow
  cases hlocate : fs.locate path with
  | error e => simp [bind, Except.bind, Except.isOk, Except.toBool]
  | ok place =>
    obtain rfl := fs.locate_named path place hlocate
    cases hasks : path.asksForDirectory with
    | true =>
      cases henter : fs.enter (fs.named path) with
      | error e =>
        have hnone : fs.find? (fs.named path) ≠ some .directory := by
          intro h
          rw [(fs.enter_ok _ _).2 ⟨rfl, h⟩] at henter
          cases henter
        simp [bind, Except.bind, henter, Except.isOk, Except.toBool, hnone]
      | ok p =>
        obtain ⟨rfl, hdirectory⟩ := (fs.enter_ok _ p).1 henter
        simp [bind, Except.bind, henter, hdirectory, Except.isOk, Except.toBool]
    | false => cases hfind : fs.find? (fs.named path) <;> simp [bind, Except.bind, hfind, Except.isOk, Except.toBool]

theorem holds_of_read {fs : FileSystem} {path : Path} {content : ByteArray} (h : fs.read path = .ok content) :
    fs.holds path = true := by
  obtain ⟨hlocate, hasks, hfile⟩ := (fs.read_ok path content).1 h
  rw [holds_iff]
  simp [hlocate, hasks, hfile]

theorem Spares.read {fs fs' : FileSystem} {path : Path} {content : ByteArray}
    (h : Spares fs fs' (fs.named path)) (hread : fs.read path = .ok content) : fs'.read path = .ok content := by
  obtain ⟨hlocate, hasks, hfile⟩ := (fs.read_ok path content).1 hread
  rw [read_ok, h.named]
  exact ⟨h.locate path _ hlocate, hasks, (h.file content).2 hfile⟩

theorem change_ok_iff (operation : FileSystem → Except IoError FileSystem) (fs fs' : FileSystem) (u : Unit) :
    change operation fs = (.ok u, fs') ↔ operation fs = .ok fs' := by
  unfold change
  cases operation fs with
  | ok t =>
    constructor
    · intro h
      cases h
      rfl
    · intro h
      cases h
      rfl
  | error e => constructor <;> intro h <;> cases h

/-- An operation that fails changes nothing. -/
theorem change_error_iff (operation : FileSystem → Except IoError FileSystem) (fs fs' : FileSystem) (e : IoError) :
    change operation fs = (.error e, fs') ↔ operation fs = .error e ∧ fs' = fs := by
  unfold change
  cases operation fs with
  | ok t =>
    constructor
    · intro h
      cases h
    · rintro ⟨h, -⟩
      cases h
  | error e =>
    constructor
    · intro h
      cases h
      exact ⟨rfl, rfl⟩
    · rintro ⟨h, rfl⟩
      cases h
      rfl

theorem run_readText (path : Path) (fs : FileSystem) :
    Id.run ((Disk.readText path : StateM FileSystem (Except IoError String)).run fs) =
      ((fs.read path).bind decode, fs) := rfl

theorem run_write_ok (path : Path) (content : ByteArray) (fs fs' : FileSystem) (u : Unit) :
    Id.run ((Disk.write path content : StateM FileSystem (Except IoError Unit)).run fs) = (.ok u, fs') ↔
      fs.write path content = .ok fs' :=
  change_ok_iff (·.write path content) fs fs' u

theorem run_write_error (path : Path) (content : ByteArray) (fs fs' : FileSystem) (e : IoError) :
    Id.run ((Disk.write path content : StateM FileSystem (Except IoError Unit)).run fs) = (.error e, fs') ↔
      fs.write path content = .error e ∧ fs' = fs :=
  change_error_iff (·.write path content) fs fs' e

theorem run_move_ok (source target : Path) (fs fs' : FileSystem) (u : Unit) :
    Id.run ((Disk.move source target : StateM FileSystem (Except IoError Unit)).run fs) = (.ok u, fs') ↔
      fs.move source target = .ok fs' :=
  change_ok_iff (·.move source target) fs fs' u

theorem run_move_error (source target : Path) (fs fs' : FileSystem) (e : IoError) :
    Id.run ((Disk.move source target : StateM FileSystem (Except IoError Unit)).run fs) = (.error e, fs') ↔
      fs.move source target = .error e ∧ fs' = fs :=
  change_error_iff (·.move source target) fs fs' e

/-- What is left to know of a write that succeeds. -/
theorem write_ok (fs fs' : FileSystem) (path : Path) (content : ByteArray)
    (h : fs.write path content = .ok fs') :
    fs.locate path = .ok (fs.named path) ∧ path.asksForDirectory = false ∧
      fs.find? (fs.named path) ≠ some .directory ∧ fs' = fs.put (fs.named path) (.file content) := by
  unfold write at h
  cases hlocate : fs.locate path with
  | error e => rw [hlocate] at h; cases h
  | ok place =>
    obtain rfl := fs.locate_named path place hlocate
    simp only [hlocate, bind, Except.bind] at h
    split at h
    · cases h
    · rename_i hgood
      rw [Bool.or_eq_true, not_or, Bool.not_eq_true, Bool.not_eq_true] at hgood
      exact ⟨rfl, hgood.1, find?_of_isDirectoryAt hgood.2, (Except.ok.inj h).symm⟩

/-- A file put where no directory is leaves all other places alone. -/
theorem spares_put (fs : FileSystem) (place other : Place) (content : ByteArray)
    (hdirectory : fs.find? place ≠ some .directory) (hother : other ≠ place) :
    Spares fs (fs.put place (.file content)) other := by
  have hplace := ne_nil_of_find? hdirectory
  refine ⟨rfl, fun p hp => ?_, fun c => ?_⟩
  · rw [find?_put _ _ _ _ hplace]
    split
    · rename_i heq
      exact absurd (heq ▸ hp) hdirectory
    · exact hp
  · rw [find?_put _ _ _ _ hplace, if_neg hother]

theorem spares_write (fs fs' : FileSystem) (path : Path) (content : ByteArray) (place : Place)
    (h : fs.write path content = .ok fs') (hplace : place ≠ fs.named path) : Spares fs fs' place := by
  obtain ⟨-, -, hdirectory, rfl⟩ := fs.write_ok fs' path content h
  exact fs.spares_put _ place content hdirectory hplace

/-- A file that was put where a path leads is what the path reads, if the directories on the way stay. -/
theorem read_of_put {fs fs' : FileSystem} {path : Path} {content : ByteArray} (h : Spares fs fs' [])
    (hlocate : fs.locate path = .ok (fs.named path)) (hasks : path.asksForDirectory = false)
    (hfile : fs'.find? (fs.named path) = some (.file content)) : fs'.read path = .ok content := by
  rw [read_ok, h.named]
  exact ⟨h.locate path _ hlocate, hasks, hfile⟩

theorem read_write (fs fs' : FileSystem) (path : Path) (content : ByteArray)
    (h : fs.write path content = .ok fs') : fs'.read path = .ok content := by
  obtain ⟨hlocate, hasks, hdirectory, rfl⟩ := fs.write_ok fs' path content h
  have hplace := ne_nil_of_find? hdirectory
  refine read_of_put (fs.spares_put _ [] content hdirectory hplace.symm) hlocate hasks ?_
  rw [find?_put _ _ _ _ hplace, if_pos rfl]

theorem move_ok (fs fs' : FileSystem) (source target : Path) (h : fs.move source target = .ok fs') :
    ∃ content, fs.read source = .ok content ∧ fs.locate target = .ok (fs.named target) ∧
      target.asksForDirectory = false ∧ fs.find? (fs.named target) ≠ some .directory ∧
      fs' = (fs.remove (fs.named source)).put (fs.named target) (.file content) := by
  unfold move at h
  cases hread : fs.read source with
  | error e => rw [hread] at h; cases h
  | ok content =>
    obtain ⟨horigin, -, -⟩ := (fs.read_ok source content).1 hread
    cases hlocate : fs.locate target with
    | error e =>
      rw [hread, horigin, hlocate] at h
      cases h
    | ok place =>
      obtain rfl := fs.locate_named target place hlocate
      simp only [hread, horigin, hlocate, bind, Except.bind] at h
      split at h
      · cases h
      · rename_i hgood
        rw [Bool.or_eq_true, not_or, Bool.not_eq_true, Bool.not_eq_true] at hgood
        exact ⟨content, rfl, rfl, hgood.1, find?_of_isDirectoryAt hgood.2, (Except.ok.inj h).symm⟩

/-- A move concerns the two names only. -/
theorem spares_move (fs fs' : FileSystem) (source target : Path) (place : Place)
    (h : fs.move source target = .ok fs') (hsource : place ≠ fs.named source) (htarget : place ≠ fs.named target) :
    Spares fs fs' place := by
  obtain ⟨content, hread, -, -, hdirectory, rfl⟩ := fs.move_ok fs' source target h
  obtain ⟨-, -, hfile⟩ := (fs.read_ok source content).1 hread
  have hplace := ne_nil_of_find? hdirectory
  refine ⟨rfl, fun p hp => ?_, fun c => ?_⟩
  · have hptarget : p ≠ fs.named target := by
      rintro rfl
      exact hdirectory hp
    have hpsource : p ≠ fs.named source := by
      rintro rfl
      rw [hfile] at hp
      cases hp
    rw [find?_put _ _ _ _ hplace, if_neg hptarget, find?_remove _ _ _ hpsource]
    exact hp
  · rw [find?_put _ _ _ _ hplace, if_neg htarget, find?_remove _ _ _ hsource]

/-- What was read under the old name is read under the new one. -/
theorem read_move (fs fs' : FileSystem) (source target : Path) (h : fs.move source target = .ok fs') :
    ∃ content, fs.read source = .ok content ∧ fs'.read target = .ok content := by
  have hmove := fs.move_ok fs' source target h
  obtain ⟨content, hread, hlocate, hasks, hdirectory, hfs'⟩ := hmove
  obtain ⟨-, -, hfile⟩ := (fs.read_ok source content).1 hread
  have hplace := ne_nil_of_find? hdirectory
  have hsource : fs.named source ≠ [] := by
    apply @ne_nil_of_find? fs
    rw [hfile]
    exact fun h => by cases h
  have hspares := fs.spares_move fs' source target [] h hsource.symm hplace.symm
  refine ⟨content, hread, read_of_put hspares hlocate hasks ?_⟩
  rw [hfs', find?_put _ _ _ _ hplace, if_pos rfl]

/-- A path with a name behind its last slash names a place of that name. -/
theorem exists_named (fs : FileSystem) {path : Path} {front last : List Char}
    (h : CardIndex.Path.EndsIn path front last) (hlast : CardIndex.Path.IsName (String.ofList last)) :
    ∃ above : Place, fs.named path = above ++ [String.ofList last] := by
  have hne : last ≠ [] := by
    rintro rfl
    exact hlast.empty rfl
  refine ⟨(CardIndex.Path.parts (String.ofList front)).foldl walk (fs.start path), ?_⟩
  rw [named, h.parts hne, List.foldl_append, List.foldl_cons, List.foldl_nil, walk, if_neg hlast.dot,
    if_neg hlast.dots]

end CardIndex.FileSystem
