import CardIndex.Proofs.Disk.Directory
import CardIndex.Proofs.Parallel
import CardIndex.World

namespace CardIndex

namespace FileSystem

open CardIndex.Path

variable {R : ByteArray → ByteArray → Prop}

/-- What is at the same place in both file systems. -/
inductive Counterpart (R : ByteArray → ByteArray → Prop) : Option Node → Option Node → Prop
  | none : Counterpart R none none
  | directory : Counterpart R (some .directory) (some .directory)
  | file {a b} (related : R a b) : Counterpart R (some (.file a)) (some (.file b))

structure Corresponds (R : ByteArray → ByteArray → Prop) (fs fs' : FileSystem) : Prop where
  workingDirectory : fs'.workingDirectory = fs.workingDirectory
  found : ∀ place, Counterpart R (fs.find? place) (fs'.find? place)

theorem corresponds_refl (hR : ∀ a, R a a) (fs : FileSystem) : Corresponds R fs fs := by
  refine ⟨rfl, fun place => ?_⟩
  cases fs.find? place with
  | none => exact .none
  | some node =>
    cases node with
    | directory => exact .directory
    | file content => exact .file (hR content)

namespace Corresponds

variable {fs fs' : FileSystem}

theorem mono {R' : ByteArray → ByteArray → Prop} (h : Corresponds R fs fs') (himp : ∀ a b, R a b → R' a b) :
    Corresponds R' fs fs' := by
  refine ⟨h.workingDirectory, fun place => ?_⟩
  have hcounterpart := h.found place
  generalize fs.find? place = found at hcounterpart ⊢
  generalize fs'.find? place = found' at hcounterpart ⊢
  cases hcounterpart with
  | none => exact .none
  | directory => exact .directory
  | file related => exact .file (himp _ _ related)

theorem enter (h : Corresponds R fs fs') (place : Place) : fs'.enter place = fs.enter place := by
  unfold FileSystem.enter
  have hcounterpart := h.found place
  generalize fs.find? place = found at hcounterpart ⊢
  generalize fs'.find? place = found' at hcounterpart ⊢
  cases hcounterpart with
  | none => rfl
  | directory => rfl
  | file related => rfl

theorem isDirectoryAt (h : Corresponds R fs fs') (place : Place) : fs'.isDirectoryAt place = fs.isDirectoryAt place := by
  unfold FileSystem.isDirectoryAt
  have hcounterpart := h.found place
  generalize fs.find? place = found at hcounterpart ⊢
  generalize fs'.find? place = found' at hcounterpart ⊢
  cases hcounterpart with
  | none => rfl
  | directory => rfl
  | file related => rfl

theorem locate (h : Corresponds R fs fs') (path : Path) : fs'.locate path = fs.locate path := by
  have hstep : fs'.step = fs.step := by
    funext place part
    rw [step, step, h.enter]
  unfold FileSystem.locate
  rw [start, start, h.workingDirectory, hstep]

theorem found_cases (h : Corresponds R fs fs') (place : Place) :
    (fs.find? place = none ∧ fs'.find? place = none) ∨
      ∃ node node', fs.find? place = some node ∧ fs'.find? place = some node' ∧
        Counterpart R (some node) (some node') := by
  have hcounterpart := h.found place
  generalize fs.find? place = found at hcounterpart ⊢
  generalize fs'.find? place = found' at hcounterpart ⊢
  cases hcounterpart with
  | none => exact .inl ⟨rfl, rfl⟩
  | directory => exact .inr ⟨_, _, rfl, rfl, .directory⟩
  | file related => exact .inr ⟨_, _, rfl, rfl, .file related⟩

/-- A path leads to counterparts. -/
theorem follow (h : Corresponds R fs fs') (path : Path) :
    (∃ e, fs.follow path = .error e ∧ fs'.follow path = .error e) ∨
      ∃ node node', fs.follow path = .ok node ∧ fs'.follow path = .ok node' ∧ Counterpart R (some node) (some node') := by
  unfold FileSystem.follow
  rw [h.locate]
  cases fs.locate path with
  | error e => exact .inl ⟨e, rfl, rfl⟩
  | ok place =>
    by_cases hasks : path.asksForDirectory = true
    · simp only [hasks, if_true, bind, Except.bind, h.enter]
      cases fs.enter place with
      | error e => exact .inl ⟨e, rfl, rfl⟩
      | ok entered =>
        rcases h.found_cases entered with ⟨hnone, hnone'⟩ | ⟨node, node', hnode, hnode', hnodes⟩
        · simp only [hnone, hnone']
          exact .inl ⟨_, rfl, rfl⟩
        · simp only [hnode, hnode']
          exact .inr ⟨_, _, rfl, rfl, hnodes⟩
    · simp only [hasks, bind, Except.bind]
      rcases h.found_cases place with ⟨hnone, hnone'⟩ | ⟨node, node', hnode, hnode', hnodes⟩
      · exact .inl ⟨.notFound, by simp [hnone], by simp [hnone']⟩
      · exact .inr ⟨node, node', by simp [hnode], by simp [hnode'], hnodes⟩

theorem isDirectory (h : Corresponds R fs fs') (path : Path) : fs'.isDirectory path = fs.isDirectory path := by
  unfold FileSystem.isDirectory
  rcases h.follow path with ⟨e, hfollow, hfollow'⟩ | ⟨node, node', hfollow, hfollow', hnodes⟩
  · rw [hfollow, hfollow']
  · rw [hfollow, hfollow']
    cases hnodes with
    | directory => rfl
    | file related => rfl

theorem holds (h : Corresponds R fs fs') (path : Path) : fs'.holds path = fs.holds path := by
  unfold FileSystem.holds
  rcases h.follow path with ⟨e, hfollow, hfollow'⟩ | ⟨node, node', hfollow, hfollow', -⟩
  · rw [hfollow, hfollow']
  · rw [hfollow, hfollow']
    rfl

theorem read (h : Corresponds R fs fs') (path : Path) : Alike R (fs.read path) (fs'.read path) := by
  unfold FileSystem.read
  rcases h.follow path with ⟨e, hfollow, hfollow'⟩ | ⟨node, node', hfollow, hfollow', hnodes⟩
  · rw [hfollow, hfollow']
    exact .error e
  · rw [hfollow, hfollow']
    cases hnodes with
    | directory => exact .error _
    | file related => exact .ok related

theorem put (h : Corresponds R fs fs') {place : Place} (hplace : place ≠ []) {node node' : Node}
    (hnodes : Counterpart R (some node) (some node')) : Corresponds R (fs.put place node) (fs'.put place node') := by
  refine ⟨h.workingDirectory, fun other => ?_⟩
  rw [find?_put _ _ _ _ hplace, find?_put _ _ _ _ hplace]
  split
  · exact hnodes
  · exact h.found other

theorem remove (h : Corresponds R fs fs') {place : Place} (hplace : place ≠ []) :
    Corresponds R (fs.remove place) (fs'.remove place) := by
  refine ⟨h.workingDirectory, fun other => ?_⟩
  by_cases hother : other = place
  · subst hother
    rw [find?_remove_self _ hplace, find?_remove_self _ hplace]
    exact .none
  · rw [find?_remove _ _ _ hother, find?_remove _ _ _ hother]
    exact h.found other

theorem write (h : Corresponds R fs fs') (path : Path) {a b : ByteArray} (hcontents : R a b) :
    Alike (Corresponds R) (fs.write path a) (fs'.write path b) := by
  unfold FileSystem.write
  rw [h.locate]
  cases fs.locate path with
  | error e => exact .error e
  | ok place =>
    simp only [bind, Except.bind, h.isDirectoryAt]
    split
    · exact .error _
    · rename_i hfile
      rw [Bool.or_eq_true, not_or, Bool.not_eq_true, Bool.not_eq_true] at hfile
      exact .ok (h.put (ne_nil_of_find? (find?_of_isDirectoryAt hfile.2)) (.file hcontents))

theorem createDirectory (h : Corresponds R fs fs') (path : Path) :
    Alike (Corresponds R) (fs.createDirectory path) (fs'.createDirectory path) := by
  unfold FileSystem.createDirectory
  rw [h.locate]
  cases fs.locate path with
  | error e => exact .error e
  | ok place =>
    simp only [bind, Except.bind]
    have hcounterpart := h.found place
    cases hfound : fs.find? place with
    | some node =>
      rw [hfound] at hcounterpart
      generalize fs'.find? place = found' at hcounterpart ⊢
      cases hcounterpart with
      | directory => exact .error _
      | file related => exact .error _
    | none =>
      have hplace : place ≠ [] := by
        apply @ne_nil_of_find? fs
        simp [hfound]
      rw [hfound] at hcounterpart
      generalize fs'.find? place = found' at hcounterpart ⊢
      cases hcounterpart
      exact .ok (h.put hplace .directory)

theorem move (h : Corresponds R fs fs') (source target : Path) :
    Alike (Corresponds R) (fs.move source target) (fs'.move source target) := by
  unfold FileSystem.move
  have hread := h.read source
  cases hcontent : fs.read source with
  | error e =>
    rw [hcontent] at hread
    generalize fs'.read source = content at hread ⊢
    cases hread
    exact .error e
  | ok content =>
    obtain ⟨horigin, -, hfile⟩ := (fs.read_ok source content).1 hcontent
    rw [hcontent] at hread
    generalize fs'.read source = content' at hread ⊢
    cases hread with
    | ok related =>
      rw [h.locate, h.locate, horigin]
      cases fs.locate target with
      | error e => exact .error e
      | ok place =>
        simp only [bind, Except.bind, h.isDirectoryAt]
        split
        · exact .error _
        · rename_i hfree
          rw [Bool.or_eq_true, not_or, Bool.not_eq_true, Bool.not_eq_true] at hfree
          have hsource : fs.named source ≠ [] := by
            apply @ne_nil_of_find? fs
            rw [hfile]
            exact fun hdirectory => by cases hdirectory
          exact .ok ((h.remove hsource).put (ne_nil_of_find? (find?_of_isDirectoryAt hfree.2)) (.file related))

theorem change (h : Corresponds R fs fs') (operation operation' : FileSystem → Except IoError FileSystem)
    (hoperations : Alike (Corresponds R) (operation fs) (operation' fs')) :
    (FileSystem.change operation fs).1 = (FileSystem.change operation' fs').1 ∧
      Corresponds R (FileSystem.change operation fs).2 (FileSystem.change operation' fs').2 := by
  unfold FileSystem.change
  generalize operation fs = result at hoperations ⊢
  generalize operation' fs' = result' at hoperations ⊢
  cases hoperations with
  | ok related => exact ⟨rfl, related⟩
  | error e => exact ⟨rfl, h⟩

end Corresponds

/-- The operation ends alike in file systems that correspond. -/
def Blind (R : ByteArray → ByteArray → Prop) {α : Type} (x : StateM FileSystem α) : Prop :=
  ∀ fs fs', Corresponds R fs fs' → (x fs).1 = (x fs').1 ∧ Corresponds R (x fs).2 (x fs').2

theorem blind_pure {α : Type} (a : α) : Blind R (pure a : StateM FileSystem α) := fun _ _ h => ⟨rfl, h⟩

theorem Blind.bind {α β : Type} {x : StateM FileSystem α} {f : α → StateM FileSystem β} (hx : Blind R x)
    (hf : ∀ a, Blind R (f a)) : Blind R (x >>= f) := by
  intro fs fs' h
  obtain ⟨hresult, hfiles⟩ := hx fs fs' h
  have hnext := hf (x fs').1 (x fs).2 (x fs').2 hfiles
  show (f (x fs).1 (x fs).2).1 = (f (x fs').1 (x fs').2).1 ∧
    Corresponds R (f (x fs).1 (x fs).2).2 (f (x fs').1 (x fs').2).2
  rw [hresult]
  exact hnext

theorem blind_createDirectory (path : Path) : Blind R (change (·.createDirectory path)) :=
  fun _ _ h => h.change _ _ (h.createDirectory path)

theorem excuse_error (fs : FileSystem) (path : Path) (e : IoError) :
    Id.run ((excuse path (.error e)).run fs) = (if fs.isDirectory path then .ok () else .error e, fs) := by
  show Id.run ((if fs.isDirectory path then pure (.ok ()) else pure (.error e) :
    StateM FileSystem (Except IoError Unit)).run fs) = _
  split <;> rfl

theorem blind_excuse (path : Path) (result : Except IoError Unit) : Blind R (excuse path result) := by
  cases result with
  | ok u => exact blind_pure _
  | error e =>
    intro fs fs' h
    have hleft := excuse_error fs path e
    have hright := excuse_error fs' path e
    rw [h.isDirectory] at hright
    exact ⟨(congrArg Prod.fst hleft).trans (congrArg Prod.fst hright).symm, by
      rw [show (excuse path (.error e) fs).2 = fs from congrArg Prod.snd hleft,
        show (excuse path (.error e) fs').2 = fs' from congrArg Prod.snd hright]
      exact h⟩

theorem blind_createDirectories (depth : Nat) (path : Path) : Blind R (createDirectories depth path) := by
  induction depth generalizing path with
  | zero => exact blind_pure _
  | succ depth ih =>
    unfold createDirectories
    split
    · exact blind_pure _
    · refine (blind_createDirectory path).bind fun result => ?_
      split
      · refine (ih _).bind fun above => ?_
        split
        · exact (blind_createDirectory path).bind fun result => blind_excuse path result
        · exact blind_pure _
      · exact blind_excuse path _

theorem blind_makeDirectories (path : Path) : Blind R (makeDirectories path) := blind_createDirectories _ path

end FileSystem

namespace World

/-- The files of two worlds correspond; whatever else there is may differ. -/
def Corresponds (R : ByteArray → ByteArray → Prop) (w w' : World) : Prop := w.files.Corresponds R w'.files

variable {R : ByteArray → ByteArray → Prop}

theorem parallel_holds (path : Path) : Parallel (Corresponds R) (Corresponds R) Eq
    (liftM (Disk.holds path : StateM World Bool)) (liftM (Disk.holds path : StateM World Bool)) :=
  parallel_lift fun _ _ h => ⟨(FileSystem.Corresponds.holds h path).symm, h⟩

theorem parallel_readText {T : String → String → Prop}
    (hdecode : ∀ a b, R a b → Alike T (FileSystem.decode a) (FileSystem.decode b)) (path : Path) :
    Parallel (Corresponds R) (Corresponds R) (Alike T)
      (liftM (Disk.readText path : StateM World (Except IoError String)))
      (liftM (Disk.readText path : StateM World (Except IoError String))) :=
  parallel_lift fun _ _ h => ⟨(FileSystem.Corresponds.read h path).bind hdecode, h⟩

theorem parallel_write (path : Path) {a b : ByteArray} (h : R a b) : Parallel (Corresponds R) (Corresponds R) Eq
    (Attempt.io (Disk.write path a : StateM World _)) (Attempt.io (Disk.write path b : StateM World _)) := by
  refine parallel_io fun w w' hfiles => ?_
  have hchange := FileSystem.Corresponds.change hfiles (·.write path a) (·.write path b) (hfiles.write path h)
  exact ⟨.of_eq hchange.1, hchange.2⟩

theorem parallel_move (source target : Path) : Parallel (Corresponds R) (Corresponds R) Eq
    (Attempt.io (Disk.move source target : StateM World _)) (Attempt.io (Disk.move source target : StateM World _)) := by
  refine parallel_io fun w w' hfiles => ?_
  have hchange := FileSystem.Corresponds.change hfiles (·.move source target) (·.move source target) (hfiles.move source target)
  exact ⟨.of_eq hchange.1, hchange.2⟩

theorem parallel_makeDirectories (path : Path) : Parallel (Corresponds R) (Corresponds R) Eq
    (Attempt.io (Disk.makeDirectories path : StateM World _)) (Attempt.io (Disk.makeDirectories path : StateM World _)) :=
  parallel_io fun w w' hfiles =>
    have hmade := FileSystem.blind_makeDirectories path w.files w'.files hfiles
    ⟨.of_eq hmade.1, hmade.2⟩

end World

end CardIndex
