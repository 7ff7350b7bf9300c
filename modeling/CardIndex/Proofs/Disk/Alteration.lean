import CardIndex.Proofs.Disk.FileSystem
import CardIndex.Proofs.Disk.Parent
import Mathlib.Data.List.Infix

namespace CardIndex.FileSystem

open CardIndex.Path

/-- A file may take the place of a file, but a directory only that of nothing. -/
def MayReplace (node : Node) (old : Option Node) : Prop :=
  old = none ∨ ∃ content content', old = some (.file content) ∧ node = .file content'

/-- Some places hold something new that is allowed there, and all others what they held. -/
structure Alters (fs fs' : FileSystem) (allowed : Place → Node → Prop) : Prop where
  workingDirectory : fs'.workingDirectory = fs.workingDirectory
  found : ∀ place, fs'.find? place = fs.find? place ∨
    ∃ node, fs'.find? place = some node ∧ allowed place node ∧ MayReplace node (fs.find? place)

namespace Alters

variable {fs fs' fs'' : FileSystem} {allowed allowed' : Place → Node → Prop}

theorem refl (fs : FileSystem) (allowed : Place → Node → Prop) : Alters fs fs allowed :=
  ⟨rfl, fun _ => .inl rfl⟩

theorem mono (h : Alters fs fs' allowed) (himp : ∀ place node, allowed place node → allowed' place node) :
    Alters fs fs' allowed' := by
  refine ⟨h.workingDirectory, fun place => ?_⟩
  rcases h.found place with hsame | ⟨node, hnode, hallowed, hold⟩
  · exact .inl hsame
  · exact .inr ⟨node, hnode, himp place node hallowed, hold⟩

theorem trans (h : Alters fs fs' allowed) (h' : Alters fs' fs'' allowed) : Alters fs fs'' allowed := by
  refine ⟨h'.workingDirectory.trans h.workingDirectory, fun place => ?_⟩
  rcases h'.found place with hsame' | ⟨node', hnode', hallowed', hold'⟩
  · rw [hsame']
    exact h.found place
  · rcases h.found place with hsame | ⟨node, hnode, hallowed, hold⟩
    · exact .inr ⟨node', hnode', hallowed', hsame ▸ hold'⟩
    · -- what was put there first can only be a file, and was put over a file or over nothing
      refine .inr ⟨node', hnode', hallowed', ?_⟩
      rcases hold' with hnone | ⟨content, content', hfile, rfl⟩
      · rw [hnode] at hnone
        cases hnone
      · obtain rfl := Option.some.inj (hnode.symm.trans hfile)
        rcases hold with hnone | ⟨old, _, hfile', -⟩
        · exact .inl hnone
        · exact .inr ⟨old, content', hfile', rfl⟩

theorem directory (h : Alters fs fs' allowed) (place : Place) (hdirectory : fs.find? place = some .directory) :
    fs'.find? place = some .directory := by
  rcases h.found place with hsame | ⟨node, -, -, hnone | ⟨content, -, hfile, -⟩⟩
  · exact hsame.trans hdirectory
  · rw [hdirectory] at hnone
    cases hnone
  · rw [hdirectory] at hfile
    cases hfile

/-- A place where no file is allowed is spared. -/
theorem spares (h : Alters fs fs' allowed) (place : Place) (hplace : ∀ content, ¬ allowed place (.file content)) :
    Spares fs fs' place := by
  refine ⟨h.workingDirectory, h.directory, fun content => ?_⟩
  rcases h.found place with hsame | ⟨node, hnode, hallowed, hold⟩
  · rw [hsame]
  · rcases hold with hnone | ⟨_, content', -, rfl⟩
    · rw [hnode, hnone]
      constructor
      · intro hfile
        obtain rfl := Option.some.inj hfile
        exact absurd hallowed (hplace content)
      · intro hfile
        cases hfile
    · exact absurd hallowed (hplace content')

/-- No file is ever at the root. -/
theorem spares_root (h : Alters fs fs' allowed) : Spares fs fs' [] := by
  refine ⟨h.workingDirectory, h.directory, fun content => ?_⟩
  simp [find?]

theorem found_of_found (h : Alters fs fs' allowed) {place : Place} (hfound : fs.find? place ≠ none) :
    fs'.find? place ≠ none := by
  rcases h.found place with hsame | ⟨node, hnode, -, -⟩
  · rwa [hsame]
  · simp [hnode]

/-- What a path has found once it finds again. -/
theorem holds (h : Alters fs fs' allowed) {path : Path} (hholds : fs.holds path = true) : fs'.holds path = true := by
  obtain ⟨hlocate, hfound, hasks⟩ := (fs.holds_iff path).1 hholds
  rw [holds_iff, h.spares_root.named]
  exact ⟨h.spares_root.locate path _ hlocate, h.found_of_found hfound, fun hask => h.directory _ (hasks hask)⟩

/-- A file is read as before if what was there is kept. -/
theorem read (h : Alters fs fs' allowed)
    (hkept : ∀ place node, fs.find? place = some node → fs'.find? place = some node) {path : Path} {content : ByteArray}
    (hread : fs.read path = .ok content) : fs'.read path = .ok content := by
  obtain ⟨hlocate, hasks, hfile⟩ := (fs.read_ok path content).1 hread
  rw [read_ok, h.spares_root.named]
  exact ⟨h.spares_root.locate path _ hlocate, hasks, hkept _ _ hfile⟩

end Alters

theorem alters_put (fs : FileSystem) (place : Place) (node : Node) (hplace : place ≠ [])
    (hold : MayReplace node (fs.find? place)) : Alters fs (fs.put place node) fun p n => p = place ∧ n = node := by
  refine ⟨rfl, fun other => ?_⟩
  rw [find?_put _ _ _ _ hplace]
  by_cases hother : other = place
  · subst hother
    exact .inr ⟨node, if_pos rfl, ⟨rfl, rfl⟩, hold⟩
  · exact .inl (if_neg hother)

theorem mayReplace_file {content : ByteArray} {old : Option Node} (h : old ≠ some .directory) :
    MayReplace (.file content) old := by
  cases old with
  | none => exact .inl rfl
  | some node =>
    cases node with
    | directory => exact absurd rfl h
    | file before => exact .inr ⟨before, content, rfl, rfl⟩

theorem alters_write {fs fs' : FileSystem} {path : Path} {content : ByteArray}
    (h : fs.write path content = .ok fs') :
    Alters fs fs' fun place node => place = fs.named path ∧ node = .file content := by
  obtain ⟨-, -, hdirectory, rfl⟩ := fs.write_ok fs' path content h
  exact fs.alters_put _ _ (ne_nil_of_find? hdirectory) (mayReplace_file hdirectory)

/-- The path names the place, or one further on. -/
def Passes (fs : FileSystem) (path : Path) (place : Place) : Prop :=
  ∃ front, front <+: path.parts ∧ place = front.foldl walk (fs.start path)

instance (fs : FileSystem) (path : Path) (place : Place) : Decidable (fs.Passes path place) :=
  decidable_of_iff (∃ front ∈ path.parts.inits, place = front.foldl walk (fs.start path)) (by simp [Passes])

theorem passes_named (fs : FileSystem) (path : Path) : fs.Passes path (fs.named path) :=
  ⟨path.parts, List.prefix_rfl, rfl⟩

theorem Passes.of_workingDirectory {fs fs' : FileSystem} {path : Path} {place : Place} (h : fs'.Passes path place)
    (hworking : fs'.workingDirectory = fs.workingDirectory) : fs.Passes path place := by
  obtain ⟨front, hfront, hplace⟩ := h
  rw [start, hworking] at hplace
  exact ⟨front, hfront, hplace⟩

/-- Whether dots are walked or left out makes no difference. -/
theorem exists_prefix_of_filter (names front : List String) (h : front <+: names.filter (· ≠ ".")) :
    ∃ front', front' <+: names ∧ ∀ place, front'.foldl walk place = front.foldl walk place := by
  induction names generalizing front with
  | nil =>
    obtain rfl := List.prefix_nil.1 h
    exact ⟨[], List.prefix_rfl, fun _ => rfl⟩
  | cons name names ih =>
    by_cases hdot : name = "."
    · subst hdot
      rw [List.filter_cons_of_neg (by simp)] at h
      obtain ⟨front', hfront', hwalk⟩ := ih front h
      refine ⟨"." :: front', List.cons_prefix_cons.2 ⟨rfl, hfront'⟩, fun place => ?_⟩
      rw [List.foldl_cons, walk, if_pos rfl, hwalk]
    · rw [List.filter_cons_of_pos (by simpa using hdot)] at h
      cases front with
      | nil => exact ⟨[], List.nil_prefix, fun _ => rfl⟩
      | cons first front =>
        obtain ⟨rfl, hrest⟩ := List.cons_prefix_cons.1 h
        obtain ⟨front', hfront', hwalk⟩ := ih front hrest
        refine ⟨first :: front', List.cons_prefix_cons.2 ⟨rfl, hfront'⟩, fun place => ?_⟩
        rw [List.foldl_cons, List.foldl_cons, hwalk]

/-- The way by a path's steps is one by its parts, also when names are left out at its end. -/
theorem exists_prefix_of_steps {path : Path} {parts names front : List String} (hparts : path.parts = parts ++ names)
    (hnames : "." ∉ names) (h : front <+: path.steps) (hlength : front.length + names.length ≤ path.steps.length) :
    ∃ front', front' <+: parts ∧ ∀ place, front'.foldl walk place = front.foldl walk place := by
  obtain ⟨kept, hsteps, hkept⟩ := steps_of_parts hparts hnames
  have hfront : front <+: kept := by
    rw [hsteps, List.length_append] at hlength
    rw [hsteps] at h
    exact List.prefix_of_prefix_length_le h (List.prefix_append kept names) (Nat.le_of_add_le_add_right hlength)
  rcases hkept with rfl | ⟨rest, rfl, rfl⟩
  · exact exists_prefix_of_filter _ front hfront
  · cases front with
    | nil => exact ⟨[], List.nil_prefix, fun _ => rfl⟩
    | cons first front =>
      obtain ⟨rfl, hrest⟩ := List.cons_prefix_cons.1 hfront
      obtain ⟨front', hfront', hwalk⟩ := exists_prefix_of_filter rest front hrest
      exact ⟨"." :: front', List.cons_prefix_cons.2 ⟨rfl, hfront'⟩, fun place => hwalk _⟩

/-- The way to the directory above is part of the way. -/
theorem Passes.of_parent {fs : FileSystem} {path above : Path} {place : Place} (h : fs.Passes above place)
    (habove : path.parent? = some above) : fs.Passes path place := by
  obtain ⟨hparts, habsolute⟩ := of_parent?_eq_some habove
  obtain ⟨front, hfront, hplace⟩ := h
  rw [hparts] at hfront
  have hsteps := hfront.trans (List.dropLast_prefix _)
  obtain ⟨front', hfront', hwalk⟩ := exists_prefix_of_steps (List.append_nil _).symm (by simp) hsteps hsteps.length_le
  refine ⟨front', hfront', ?_⟩
  rw [hwalk, hplace, start, start, habsolute]

theorem createDirectory_ok {fs fs' : FileSystem} {path : Path} (h : fs.createDirectory path = .ok fs') :
    fs.locate path = .ok (fs.named path) ∧ fs.find? (fs.named path) = none ∧ fs' = fs.put (fs.named path) .directory := by
  unfold createDirectory at h
  cases hlocate : fs.locate path with
  | error e => rw [hlocate] at h; cases h
  | ok place =>
    obtain rfl := fs.locate_named path place hlocate
    simp only [hlocate, bind, Except.bind] at h
    split at h
    · cases h
    · rename_i hnone
      rw [Option.not_isSome_iff_eq_none] at hnone
      exact ⟨rfl, hnone, (Except.ok.inj h).symm⟩

theorem alters_createDirectory {fs fs' : FileSystem} {path : Path} (h : fs.createDirectory path = .ok fs') :
    Alters fs fs' fun place node => fs.Passes path place ∧ node = .directory := by
  obtain ⟨-, hnone, rfl⟩ := createDirectory_ok h
  have hplace : fs.named path ≠ [] := by
    apply @ne_nil_of_find? fs
    simp [hnone]
  refine (fs.alters_put _ _ hplace (.inl hnone)).mono ?_
  rintro place node ⟨rfl, rfl⟩
  exact ⟨fs.passes_named path, rfl⟩

/-- Whatever an operation ends with, the file systems before and after are related. -/
def Leaves {α : Type} (relation : FileSystem → FileSystem → Prop) (operation : StateM FileSystem α) : Prop :=
  ∀ fs, relation fs (operation fs).2

section

variable {α β : Type} {relation : FileSystem → FileSystem → Prop} (refl : ∀ fs, relation fs fs)
  (trans : ∀ fs fs' fs'', relation fs fs' → relation fs' fs'' → relation fs fs'')

include refl in
theorem leaves_pure (a : α) : Leaves relation (pure a : StateM FileSystem α) := refl

include trans in
theorem Leaves.bind {x : StateM FileSystem α} {f : α → StateM FileSystem β} (hx : Leaves relation x)
    (hf : ∀ a, Leaves relation (f a)) : Leaves relation (x >>= f) :=
  fun fs => trans fs (x fs).2 _ (hx fs) (hf (x fs).1 (x fs).2)

include refl in
theorem leaves_change (operation : FileSystem → Except IoError FileSystem)
    (h : ∀ fs fs', operation fs = .ok fs' → relation fs fs') : Leaves relation (change operation) := by
  intro fs
  unfold change
  cases hop : operation fs with
  | ok fs' => exact h fs fs' hop
  | error e => exact refl fs

include refl trans in
theorem leaves_excuse (path : Path) (result : Except IoError Unit) : Leaves relation (excuse path result) := by
  cases result with
  | ok u => exact leaves_pure refl _
  | error e =>
    have hget : Leaves relation (get : StateM FileSystem FileSystem) := refl
    refine Leaves.bind trans hget fun fs => ?_
    split
    · exact leaves_pure refl _
    · exact leaves_pure refl _

include refl trans in
/-- The only directories that are made are those of the path and of the paths above it. -/
theorem leaves_createDirectories (ways : Path → Prop)
    (above : ∀ path parent, ways path → path.parent? = some parent → ways parent)
    (make : ∀ path fs fs', ways path → fs.createDirectory path = .ok fs' → relation fs fs')
    (depth : Nat) (path : Path) (hpath : ways path) : Leaves relation (createDirectories depth path) := by
  induction depth generalizing path with
  | zero => exact leaves_pure refl _
  | succ depth ih =>
    have hmake := leaves_change refl (·.createDirectory path) fun fs fs' => make path fs fs' hpath
    have habove : Leaves relation (createDirectories depth (path.parent?.getD "")) := by
      cases hparent : path.parent? with
      | some parent => exact ih parent (above path parent hpath hparent)
      | none =>
        cases depth with
        | zero => exact leaves_pure refl _
        | succ depth => exact leaves_pure refl _
    unfold createDirectories
    split
    · exact leaves_pure refl _
    · refine Leaves.bind trans hmake fun result => ?_
      split
      · refine Leaves.bind trans habove fun made => ?_
        split
        · exact Leaves.bind trans hmake fun result => leaves_excuse refl trans path result
        · exact leaves_pure refl _
      · exact leaves_excuse refl trans path _

end

/-- Directories are made on the way of a path only, even if one of them cannot be made. -/
theorem alters_makeDirectories (path : Path) (fs : FileSystem) :
    Alters fs (makeDirectories path fs).2 fun place node => fs.Passes path place ∧ node = .directory := by
  let onTheWay (place : Place) (node : Node) : Prop := fs.Passes path place ∧ node = .directory
  let alters (t t' : FileSystem) : Prop :=
    t.workingDirectory = fs.workingDirectory → t.Alters t' onTheWay ∧ t'.workingDirectory = fs.workingDirectory
  have hrefl (t : FileSystem) : alters t t := fun hworking => ⟨Alters.refl t _, hworking⟩
  have htrans (t t' t'' : FileSystem) (h : alters t t') (h' : alters t' t'') : alters t t'' := by
    intro hworking
    obtain ⟨hfirst, hworking'⟩ := h hworking
    obtain ⟨hsecond, hworking''⟩ := h' hworking'
    exact ⟨hfirst.trans hsecond, hworking''⟩
  have hmake (p : Path) (t t' : FileSystem) (hp : ∀ place, fs.Passes p place → fs.Passes path place)
      (hcreate : t.createDirectory p = .ok t') : alters t t' := by
    intro hworking
    have hcreated := alters_createDirectory hcreate
    refine ⟨hcreated.mono fun place node hnode => ?_, hcreated.workingDirectory.trans hworking⟩
    exact ⟨hp place (hnode.1.of_workingDirectory hworking), hnode.2⟩
  have hleaves := leaves_createDirectories hrefl htrans (fun p => ∀ place, fs.Passes p place → fs.Passes path place)
    (fun p q hp hq place hplace => hp place (hplace.of_parent hq)) hmake (path.parts.length + 2) path
    (fun _ hplace => hplace) fs
  exact (hleaves rfl).1

/-- Whatever directories are made, no file is touched. -/
theorem spares_makeDirectories (path : Path) (place : Place) (fs : FileSystem) :
    Spares fs (makeDirectories path fs).2 place :=
  (alters_makeDirectories path fs).spares place fun _ h => Node.noConfusion h.2

end CardIndex.FileSystem
