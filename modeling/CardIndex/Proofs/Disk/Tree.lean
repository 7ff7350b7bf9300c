import CardIndex.Proofs.Disk.Alteration

namespace CardIndex.FileSystem

open CardIndex.Path

/-- What is there is in a directory. -/
def IsTree (fs : FileSystem) : Prop :=
  ∀ place name, fs.find? (place ++ [name]) ≠ none → fs.find? place = some .directory

theorem isTree_of_entries {fs : FileSystem} (h : ∀ e ∈ fs.entries, fs.isDirectoryAt e.1.dropLast = true) : fs.IsTree := by
  intro place name hfound
  obtain ⟨node, hnode⟩ := Option.ne_none_iff_exists'.1 hfound
  rw [find?, if_neg (by simp), List.lookup_eq_some_iff] at hnode
  obtain ⟨before, after, hentries, -⟩ := hnode
  have habove := h (place ++ [name], node) (by simp [hentries])
  rw [List.dropLast_concat, isDirectoryAt] at habove
  split at habove
  · assumption
  · cases habove

theorem IsTree.dropLast {fs : FileSystem} (h : fs.IsTree) {place : Place} (hplace : fs.find? place = some .directory) :
    fs.find? place.dropLast = some .directory := by
  induction place using List.reverseRecOn with
  | nil => exact hplace
  | append_singleton above name _ =>
    rw [List.dropLast_concat]
    exact h above name (by simp [hplace])

theorem IsTree.put {fs : FileSystem} (h : fs.IsTree) {above : Place} {name : String} {node : Node}
    (habove : fs.find? above = some .directory) (hold : MayReplace node (fs.find? (above ++ [name]))) :
    (fs.put (above ++ [name]) node).IsTree := by
  have hdirectories := (fs.alters_put (above ++ [name]) node (by simp) hold).directory
  intro place other hfound
  apply hdirectories
  rw [find?_put _ _ _ _ (by simp)] at hfound
  by_cases hsame : place ++ [other] = above ++ [name]
  · obtain ⟨rfl, -⟩ := List.append_inj' hsame rfl
    exact habove
  · rw [if_neg hsame] at hfound
    exact h place other hfound

theorem foldlM_step_concat (fs : FileSystem) (names : List String) (last : String) (p q : Place) :
    (names ++ [last]).foldlM fs.step p = .ok q ↔ ∃ r, names.foldlM fs.step p = .ok r ∧ fs.step r last = .ok q := by
  rw [List.foldlM_append]
  cases names.foldlM fs.step p with
  | error e => simp [bind, Except.bind]
  | ok r =>
    show [last].foldlM fs.step r = .ok q ↔ _
    rw [List.foldlM_cons]
    simp

/-- Where a path leads to no directory, its last step is one down from a directory. -/
theorem IsTree.above_of_locate {fs : FileSystem} (h : fs.IsTree) {path : Path}
    (hlocate : fs.locate path = .ok (fs.named path)) (hfile : fs.find? (fs.named path) ≠ some .directory) :
    ∃ above name, fs.named path = above ++ [name] ∧ fs.find? above = some .directory := by
  have hne : path ≠ "" := by
    rintro rfl
    cases hlocate
  rw [locate, if_neg hne] at hlocate
  rcases List.eq_nil_or_concat path.parts with hparts | ⟨front, last, hparts⟩
  · have hroot : fs.named path = [] := by
      rw [named, hparts, List.foldl_nil, start, if_pos ((eq_empty_or_isAbsolute hparts).resolve_left hne)]
    rw [hroot] at hfile
    exact absurd rfl hfile
  · rw [List.concat_eq_append] at hparts
    rw [hparts, foldlM_step_concat] at hlocate
    obtain ⟨above, -, hlast⟩ := hlocate
    obtain ⟨hwalk, hdirectory⟩ := (fs.step_ok _ _ _).1 hlast
    unfold walk at hwalk
    split at hwalk
    · exact absurd (hwalk ▸ hdirectory) hfile
    · split at hwalk
      · exact absurd (hwalk ▸ h.dropLast hdirectory) hfile
      · exact ⟨above, last, hwalk, hdirectory⟩

theorem IsTree.write {fs fs' : FileSystem} (h : fs.IsTree) {path : Path} {content : ByteArray}
    (hwrite : fs.write path content = .ok fs') : fs'.IsTree := by
  obtain ⟨hlocate, -, hfile, rfl⟩ := fs.write_ok fs' path content hwrite
  obtain ⟨above, name, hplace, habove⟩ := h.above_of_locate hlocate hfile
  rw [hplace] at hfile ⊢
  exact h.put habove (mayReplace_file hfile)

theorem IsTree.createDirectory {fs fs' : FileSystem} (h : fs.IsTree) {path : Path}
    (hcreate : fs.createDirectory path = .ok fs') : fs'.IsTree := by
  obtain ⟨hlocate, hnone, rfl⟩ := createDirectory_ok hcreate
  obtain ⟨above, name, hplace, habove⟩ := h.above_of_locate hlocate (by simp [hnone])
  rw [hplace] at hnone ⊢
  exact h.put habove (.inl hnone)

theorem IsTree.makeDirectories {fs : FileSystem} (h : fs.IsTree) (path : Path) :
    (FileSystem.makeDirectories path fs).2.IsTree := by
  have hleaves : Leaves (fun fs fs' => fs.IsTree → fs'.IsTree) (createDirectories (path.parts.length + 2) path) :=
    leaves_createDirectories (fun _ htree => htree) (fun _ _ _ hfirst hsecond htree => hsecond (hfirst htree))
      (fun _ => True) (fun _ _ _ _ => trivial) (fun _ _ _ _ hcreate htree => htree.createDirectory hcreate) _ path trivial
  exact hleaves fs h

/-- The steps up in a path are taken before anything on it can be missing. -/
def Grounded (fs : FileSystem) (path : Path) : Prop :=
  ∃ front back, path.parts = front ++ back ∧ ".." ∉ back ∧ ∃ place, front.foldlM fs.step (fs.start path) = .ok place

theorem grounded_of_parts (fs : FileSystem) {path : Path} (h : ".." ∉ path.parts) : fs.Grounded path :=
  ⟨[], path.parts, rfl, h, _, rfl⟩

theorem Grounded.spares {fs fs' : FileSystem} {path : Path} {other : Place} (h : fs.Grounded path)
    (hspares : Spares fs fs' other) : fs'.Grounded path := by
  obtain ⟨front, back, hparts, hback, place, hplace⟩ := h
  refine ⟨front, back, hparts, hback, place, ?_⟩
  rw [hspares.start]
  exact hspares.foldlM_step front _ place hplace

theorem Grounded.join {fs : FileSystem} {base p : Path} (h : fs.Grounded base) (hp : ".." ∉ p.parts) :
    fs.Grounded (base.join p) := by
  cases habsolute : p.isAbsolute with
  | true =>
    rw [join_absolute base habsolute]
    exact fs.grounded_of_parts hp
  | false =>
    obtain ⟨front, back, hparts, hback, place, hplace⟩ := h
    have hstart : fs.start (base.join p) = fs.start base := by
      rw [start, start, isAbsolute_join base habsolute]
    refine ⟨front, back ++ p.parts, ?_, ?_, place, ?_⟩
    · rw [parts_join_relative base habsolute, hparts, List.append_assoc]
    · simp [hback, hp]
    · rw [hstart]
      exact hplace

/-- A base from which a path can be followed can be followed itself. -/
theorem grounded_of_locate {fs : FileSystem} {base p : Path} {place : Place} (hp : p.isAbsolute = false)
    (h : fs.locate (base.join p) = .ok place) : fs.Grounded base := by
  rw [locate] at h
  split at h
  · cases h
  · rw [parts_join_relative base hp, List.foldlM_append] at h
    have hstart : fs.start (base.join p) = fs.start base := by
      rw [start, start, isAbsolute_join base hp]
    rw [hstart] at h
    cases hbase : base.parts.foldlM fs.step (fs.start base) with
    | error e => rw [hbase] at h; cases h
    | ok q => exact ⟨base.parts, [], (List.append_nil _).symm, List.not_mem_nil, q, hbase⟩

/-- All the way to a directory there are directories, so it can be walked. -/
theorem IsTree.foldlM_step {fs : FileSystem} (h : fs.IsTree) (place : Place) (names : List String) (hup : ".." ∉ names)
    (hdirectory : fs.find? (names.foldl walk place) = some .directory) :
    names.foldlM fs.step place = .ok (names.foldl walk place) := by
  induction names using List.reverseRecOn with
  | nil => rfl
  | append_singleton names name ih =>
    rw [List.mem_append, not_or, List.mem_singleton] at hup
    rw [List.foldl_append, List.foldl_cons, List.foldl_nil] at hdirectory ⊢
    have hbefore : fs.find? (names.foldl walk place) = some .directory := by
      rw [walk] at hdirectory
      split at hdirectory
      · exact hdirectory
      · rw [if_neg (Ne.symm hup.2)] at hdirectory
        exact h _ name (by simp [hdirectory])
    rw [foldlM_step_concat]
    exact ⟨_, ih hup.1 hbefore, (fs.step_ok _ _ name).2 ⟨rfl, hbefore⟩⟩

/-- If there is something at the place that a path names, the path leads there. -/
theorem Grounded.locate {fs : FileSystem} {path : Path} (h : fs.Grounded path) (htree : fs.IsTree) (hne : path ≠ "")
    (hasks : path.asksForDirectory = false) (hfound : fs.find? (fs.named path) ≠ none) :
    fs.locate path = .ok (fs.named path) := by
  obtain ⟨front, back, hparts, hback, place, hplace⟩ := h
  obtain ⟨before, name, hname, hisName⟩ := exists_name hne hasks
  have hstart := fs.foldlM_step_named front _ place hplace
  rw [FileSystem.locate, if_neg hne]
  unfold named at hfound ⊢
  rw [hparts, List.foldlM_append, hplace]
  rw [hparts, List.foldl_append, ← hstart] at hfound
  rw [List.foldl_append, ← hstart]
  show back.foldlM fs.step place = .ok (back.foldl walk place)
  rcases List.eq_nil_or_concat back with rfl | ⟨init, last, rfl⟩
  · rfl
  · rw [List.concat_eq_append] at hparts hback hfound ⊢
    rw [hname, ← List.append_assoc] at hparts
    obtain ⟨-, hlast⟩ := List.append_inj' hparts rfl
    obtain rfl := List.singleton_inj.1 hlast
    rw [List.mem_append, not_or] at hback
    rw [List.foldl_append, List.foldl_cons, List.foldl_nil] at hfound ⊢
    have hwalk : walk (init.foldl walk place) name = init.foldl walk place ++ [name] := by
      rw [walk, if_neg hisName.dot, if_neg hisName.dots]
    rw [hwalk] at hfound
    have habove := htree _ _ hfound
    rw [foldlM_step_concat]
    exact ⟨_, htree.foldlM_step place init hback.1 habove, (fs.step_ok _ _ name).2 ⟨rfl, habove⟩⟩

theorem Grounded.holds {fs : FileSystem} {path : Path} (h : fs.Grounded path) (htree : fs.IsTree) (hne : path ≠ "")
    (hasks : path.asksForDirectory = false) (hfound : fs.find? (fs.named path) ≠ none) : fs.holds path = true := by
  rw [holds_iff]
  exact ⟨h.locate htree hne hasks hfound, hfound, by simp [hasks]⟩

/-- Where a path that can lead to a file finds nothing, nothing is. -/
theorem Grounded.find?_of_missing {fs : FileSystem} {path : Path} (h : fs.Grounded path) (htree : fs.IsTree)
    (hne : path ≠ "") (hasks : path.asksForDirectory = false) (hmissing : fs.holds path = false) :
    fs.find? (fs.named path) = none := by
  by_contra hfound
  rw [h.holds htree hne hasks hfound] at hmissing
  cases hmissing

end CardIndex.FileSystem
