import CardIndex.Proofs.Disk.FileSystem
import CardIndex.Proofs.Disk.Path

namespace CardIndex.FileSystem

open CardIndex.Path

/-- A path leads to a directory, the empty path to the one that is worked in. -/
structure Leads (fs : FileSystem) (path : Path) (place : Place) : Prop where
  walked : path.parts.foldlM fs.step (fs.start path) = .ok place
  directory : fs.find? place = some .directory

theorem find?_remove_self (fs : FileSystem) {place : Place} (hplace : place ≠ []) :
    (fs.remove place).find? place = none := by
  unfold find? remove
  rw [if_neg hplace, List.lookup_eq_none_iff]
  intro e he
  have hother : e.1 ≠ place := by simpa using (List.mem_filter.1 he).2
  exact bne_iff_ne.2 hother.symm

theorem bind_of_eq {α β : Type} {x : StateM FileSystem α} {f : α → StateM FileSystem β} {fs fs' : FileSystem} {a : α}
    (h : x fs = (a, fs')) : (x >>= f) fs = f a fs' := by
  show f (x fs).1 (x fs).2 = f a fs'
  rw [h]

theorem write_of_locate {fs : FileSystem} {path : Path} {place : Place} (hlocate : fs.locate path = .ok place)
    (hasks : path.asksForDirectory = false) (content : ByteArray) (hfree : fs.find? place ≠ some .directory) :
    fs.write path content = .ok (fs.put place (.file content)) := by
  have hfile : fs.isDirectoryAt place = false := by
    unfold isDirectoryAt
    split
    · contradiction
    · rfl
  unfold FileSystem.write
  rw [hlocate, hasks]
  simp [bind, Except.bind, hfile]

theorem made_of_none {fs : FileSystem} {path : Path} {place : Place} (hlocate : fs.locate path = .ok place)
    (hnone : fs.find? place = none) :
    change (·.createDirectory path) fs = (.ok (), fs.put place .directory) := by
  rw [change_ok_iff, createDirectory, hlocate]
  simp [bind, Except.bind, hnone]

/-- That a directory is there already is no failure to make it. -/
theorem excused_of_directory {fs : FileSystem} {path : Path} {place : Place} (hlocate : fs.locate path = .ok place)
    (hdirectory : fs.find? place = some .directory) :
    change (·.createDirectory path) fs = (.error .alreadyExists, fs) ∧
      excuse path (.error .alreadyExists) fs = (.ok (), fs) := by
  have hthere : fs.isDirectory path = true := by
    have henter := (fs.enter_ok place place).2 ⟨rfl, hdirectory⟩
    unfold isDirectory follow
    rw [hlocate]
    cases path.asksForDirectory <;> simp [bind, Except.bind, henter, hdirectory]
  constructor
  · rw [change_error_iff, createDirectory, hlocate]
    simp [bind, Except.bind, hdirectory]
  · show (if fs.isDirectory path = true then pure (.ok ()) else pure (.error .alreadyExists) :
      StateM FileSystem (Except IoError Unit)) fs = _
    rw [if_pos hthere]
    rfl

theorem Leads.of_locate {fs : FileSystem} {path : Path} {place : Place} (hne : path ≠ "")
    (hlocate : fs.locate path = .ok place) (hdirectory : fs.find? place = some .directory) : fs.Leads path place := by
  rw [locate, if_neg hne] at hlocate
  exact ⟨hlocate, hdirectory⟩

namespace Leads

variable {fs fs' : FileSystem} {path : Path} {place : Place} {name : String}

theorem spares {other : Place} (h : fs.Leads path place) (hspares : Spares fs fs' other) : fs'.Leads path place := by
  constructor
  · rw [hspares.start]
    exact hspares.foldlM_step _ _ _ h.walked
  · exact hspares.directory place h.directory

theorem locate (h : fs.Leads path place) (hname : IsName name) :
    fs.locate (path.join name) = .ok (place ++ [name]) := by
  have hstart : fs.start (path.join name) = fs.start path := by
    rw [start, start, isAbsolute_join path (isAbsolute_name hname.slash)]
  have hstep : fs.step place name = .ok (place ++ [name]) := by
    rw [step_ok]
    have hwalk : walk place name = place ++ [name] := by
      rw [walk, if_neg hname.dot, if_neg hname.dots]
    exact ⟨hwalk.symm, h.directory⟩
  rw [FileSystem.locate, if_neg (join_ne_empty path hname.slash hname.empty), hstart,
    parts_join path hname.slash hname.empty, List.foldlM_append, h.walked]
  show [name].foldlM fs.step place = .ok (place ++ [name])
  rw [List.foldlM_cons, hstep]
  rfl

theorem named (h : fs.Leads path place) (hname : IsName name) : fs.named (path.join name) = place ++ [name] :=
  (fs.locate_named _ _ (h.locate hname)).symm

theorem read_none (h : fs.Leads path place) (hname : IsName name) (hnone : fs.find? (place ++ [name]) = none) :
    fs.read (path.join name) = .error .notFound := by
  unfold FileSystem.read follow
  rw [h.locate hname, asksForDirectory_join path hname]
  simp [bind, Except.bind, hnone]

theorem read_file (h : fs.Leads path place) (hname : IsName name) {content : ByteArray}
    (hfile : fs.find? (place ++ [name]) = some (.file content)) : fs.read (path.join name) = .ok content := by
  rw [read_ok, h.named hname]
  exact ⟨h.locate hname, asksForDirectory_join path hname, hfile⟩

theorem write (h : fs.Leads path place) (hname : IsName name) (content : ByteArray)
    (hfree : fs.find? (place ++ [name]) ≠ some .directory) :
    fs.write (path.join name) content = .ok (fs.put (place ++ [name]) (.file content)) :=
  write_of_locate (h.locate hname) (asksForDirectory_join path hname) content hfree

theorem move (h : fs.Leads path place) {source target : String} (hsource : IsName source) (htarget : IsName target)
    {content : ByteArray} (hfile : fs.find? (place ++ [source]) = some (.file content))
    (hfree : fs.find? (place ++ [target]) ≠ some .directory) :
    fs.move (path.join source) (path.join target) =
      .ok ((fs.remove (place ++ [source])).put (place ++ [target]) (.file content)) := by
  have hplain : fs.isDirectoryAt (place ++ [target]) = false := by
    unfold isDirectoryAt
    split
    · contradiction
    · rfl
  unfold FileSystem.move
  rw [h.read_file hsource hfile, h.locate hsource, h.locate htarget, asksForDirectory_join path htarget]
  simp [bind, Except.bind, hplain]

/-- A directory that is there need not be made. -/
theorem createDirectories (h : fs.Leads path place) (depth : Nat) :
    FileSystem.createDirectories (depth + 1) path fs = (.ok (), fs) := by
  unfold FileSystem.createDirectories
  by_cases hempty : path = ""
  · rw [if_pos hempty]
    rfl
  · have hlocate : fs.locate path = .ok place := by
      rw [FileSystem.locate, if_neg hempty, h.walked]
    obtain ⟨hchange, hexcuse⟩ := excused_of_directory hlocate h.directory
    rw [if_neg hempty]
    exact (bind_of_eq hchange).trans hexcuse

theorem makeDirectories (h : fs.Leads path place) : FileSystem.makeDirectories path fs = (.ok (), fs) :=
  h.createDirectories _

theorem join (h : fs.Leads path place) (hname : IsName name)
    (hdirectory : fs.find? (place ++ [name]) = some .directory) : fs.Leads (path.join name) (place ++ [name]) :=
  .of_locate (join_ne_empty path hname.slash hname.empty) (h.locate hname) hdirectory

/-- A directory is made in one that is there. -/
theorem makeDirectories_join (h : fs.Leads path place) (hname : IsName name)
    (hnone : fs.find? (place ++ [name]) = none) :
    FileSystem.makeDirectories (path.join name) fs = (.ok (), fs.put (place ++ [name]) .directory) := by
  unfold FileSystem.makeDirectories FileSystem.createDirectories
  rw [if_neg (join_ne_empty path hname.slash hname.empty)]
  exact bind_of_eq (made_of_none (h.locate hname) hnone)

/-- A draft that is moved over a file takes that file's place and is gone itself. -/
theorem replace (h : fs.Leads path place) {draft : String} (hdraft : IsName draft) (hname : IsName name)
    (hother : draft ≠ name) (content : ByteArray) (hfreeDraft : fs.find? (place ++ [draft]) ≠ some .directory)
    (hfree : fs.find? (place ++ [name]) ≠ some .directory) :
    ∃ drafted fs', fs.write (path.join draft) content = .ok drafted ∧
      drafted.move (path.join draft) (path.join name) = .ok fs' ∧ fs'.Leads path place ∧
      ∀ p, fs'.find? p = if p = place ++ [name] then some (.file content)
        else if p = place ++ [draft] then none else fs.find? p := by
  have hne (n : String) : place ++ [n] ≠ [] := by simp
  have hplaces : place ++ [name] ≠ place ++ [draft] := by simpa using hother.symm
  have hwrite := h.write hdraft content hfreeDraft
  have hspares := fs.spares_put (place ++ [draft]) (place ++ [name]) content hfreeDraft hplaces
  have hdrafted := h.spares hspares
  have hsource : (fs.put (place ++ [draft]) (.file content)).find? (place ++ [draft]) = some (.file content) := by
    rw [find?_put _ _ _ _ (hne draft), if_pos rfl]
  have htarget : (fs.put (place ++ [draft]) (.file content)).find? (place ++ [name]) ≠ some .directory := by
    rw [find?_put _ _ _ _ (hne draft), if_neg hplaces]
    exact hfree
  have hmove := hdrafted.move hdraft hname hsource htarget
  have hfind (p : Place) :
      (((fs.put (place ++ [draft]) (.file content)).remove (place ++ [draft])).put (place ++ [name])
        (.file content)).find? p = if p = place ++ [name] then some (.file content)
          else if p = place ++ [draft] then none else fs.find? p := by
    rw [find?_put _ _ _ _ (hne name)]
    by_cases hp : p = place ++ [draft]
    · subst hp
      rw [find?_remove_self _ (hne draft), if_pos rfl]
    · rw [find?_remove _ _ _ hp, find?_put _ _ _ _ (hne draft), if_neg hp, if_neg hp]
  have hkept :
      Spares fs (((fs.put (place ++ [draft]) (.file content)).remove (place ++ [draft])).put (place ++ [name])
        (.file content)) [] := by
    refine ⟨rfl, fun p hp => ?_, fun c => Iff.rfl⟩
    have hpname : p ≠ place ++ [name] := fun heq => hfree (heq ▸ hp)
    have hpdraft : p ≠ place ++ [draft] := fun heq => hfreeDraft (heq ▸ hp)
    rw [hfind, if_neg hpname, if_neg hpdraft]
    exact hp
  exact ⟨_, _, hwrite, hmove, h.spares hkept, hfind⟩

end Leads

/-- What is at a place is what was there before, if anything was. -/
def Grown (fs fs' : FileSystem) : Prop :=
  fs'.workingDirectory = fs.workingDirectory ∧ ∀ place, fs.find? place = none ∨ fs.find? place = fs'.find? place

theorem grown_of_spares {fs fs' : FileSystem} (h : ∀ place, Spares fs fs' place) : Grown fs fs' := by
  refine ⟨(h []).workingDirectory, fun place => ?_⟩
  cases hnode : fs.find? place with
  | none => exact .inl rfl
  | some node =>
    right
    cases node with
    | directory => exact ((h place).directory place hnode).symm
    | file content => exact (((h place).file content).2 hnode).symm

/-- A result is that nothing is found, or another one. -/
def NotFoundOr {α : Type} (x y : Except IoError α) : Prop := x = .error .notFound ∨ x = y

theorem NotFoundOr.bind {α β : Type} {x y : Except IoError α} {f g : α → Except IoError β} (h : NotFoundOr x y)
    (hf : ∀ a, NotFoundOr (f a) (g a)) : NotFoundOr (x >>= f) (y >>= g) := by
  rcases h with rfl | rfl
  · exact .inl rfl
  · cases x with
    | error e => exact .inr rfl
    | ok a => exact hf a

namespace Grown

variable {fs fs' : FileSystem}

theorem enter (h : Grown fs fs') (place : Place) : NotFoundOr (fs.enter place) (fs'.enter place) := by
  unfold FileSystem.enter
  rcases h.2 place with hnone | hsame
  · rw [hnone]
    exact .inl rfl
  · rw [hsame]
    exact .inr rfl

theorem foldlM_step (h : Grown fs fs') (parts : List String) (place : Place) :
    NotFoundOr (parts.foldlM fs.step place) (parts.foldlM fs'.step place) := by
  induction parts generalizing place with
  | nil => exact .inr rfl
  | cons part parts ih =>
    rw [List.foldlM_cons, List.foldlM_cons]
    have hstep : NotFoundOr (fs.step place part) (fs'.step place part) :=
      (h.enter place).bind fun _ => .inr rfl
    exact hstep.bind ih

/-- Before some directories were made, a path finds nothing or the same file. -/
theorem read (h : Grown fs fs') (path : Path) : NotFoundOr (fs.read path) (fs'.read path) := by
  have hlocate : NotFoundOr (fs.locate path) (fs'.locate path) := by
    unfold locate
    split
    · exact .inr rfl
    · rw [start, start, h.1]
      exact h.foldlM_step path.parts _
  have hfollow : NotFoundOr (fs.follow path) (fs'.follow path) := by
    refine hlocate.bind fun place => ?_
    split
    · refine (h.enter place).bind fun entry => ?_
      rcases h.2 entry with hnone | hsame
      · simp [hnone, NotFoundOr]
      · simp [hsame, NotFoundOr]
    · refine NotFoundOr.bind (.inr rfl) fun entry => ?_
      rcases h.2 entry with hnone | hsame
      · simp [hnone, NotFoundOr]
      · simp [hsame, NotFoundOr]
  exact hfollow.bind fun _ => .inr rfl

end Grown

end CardIndex.FileSystem
