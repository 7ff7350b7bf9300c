import CardIndex.Proofs.CommandLine.Loading
import CardIndex.Proofs.Dataset.Files
import CardIndex.Proofs.Disk.Directory
import CardIndex.Proofs.Disk.Parent
import CardIndex.Proofs.Parallel

namespace CardIndex

open CardIndex.Path

namespace FileSystem

/-- The working directory is there, under names that directories may list. -/
structure AtWork (fs : FileSystem) : Prop where
  names : ∀ name ∈ fs.workingDirectory, IsName name
  directories : ∀ place, place <+: fs.workingDirectory → fs.find? place = some .directory

theorem atWork_of_root {fs : FileSystem} (h : fs.workingDirectory = []) : fs.AtWork := by
  constructor
  · rw [h]
    exact fun name hname => by cases hname
  · rw [h]
    intro place hplace
    obtain rfl := List.prefix_nil.1 hplace
    rfl

namespace AtWork

variable {fs : FileSystem} {place : Place}

theorem foldlM_step (h : fs.AtWork) (hplace : place <+: fs.workingDirectory) : place.foldlM fs.step [] = .ok place := by
  induction place using List.reverseRecOn with
  | nil => rfl
  | append_singleton above name ih =>
    have habove : above <+: fs.workingDirectory := (List.prefix_append above [name]).trans hplace
    have hname := h.names name (hplace.subset (by simp))
    have hstep : fs.step above name = .ok (above ++ [name]) := by
      rw [step_ok, walk, if_neg hname.dot, if_neg hname.dots]
      exact ⟨rfl, h.directories above habove⟩
    rw [List.foldlM_append, ih habove]
    show [name].foldlM fs.step above = .ok (above ++ [name])
    rw [List.foldlM_cons, hstep]
    rfl

theorem good_names (h : fs.AtWork) (hplace : place <+: fs.workingDirectory) :
    ∀ name ∈ place, '/' ∉ name.toList ∧ name ≠ "" := fun name hname =>
  have hgood := h.names name (hplace.subset hname)
  ⟨hgood.slash, hgood.empty⟩

theorem leads (h : fs.AtWork) (hplace : place <+: fs.workingDirectory) : fs.Leads (ofNames true place) place := by
  have hnames := h.good_names hplace
  constructor
  · rw [parts_ofNames true place hnames, start, isAbsolute_ofNames true place hnames, if_pos rfl]
    exact h.foldlM_step hplace
  · exact h.directories place hplace

theorem leads_here (h : fs.AtWork) : fs.Leads "" fs.workingDirectory := by
  constructor
  · rfl
  · exact h.directories _ List.prefix_rfl

theorem parent_concat (h : fs.AtWork) {above : Place} {name : String} (hplace : above ++ [name] <+: fs.workingDirectory) :
    parent? (ofNames true (above ++ [name])) = some (ofNames true above) := by
  have hnames := h.good_names hplace
  have hdot : "." ∉ above ++ [name] := fun hmem => (h.names _ (hplace.subset hmem)).dot rfl
  have hparts : parts (ofNames true (above ++ [name])) = [] ++ (above ++ [name]) := parts_ofNames true _ hnames
  obtain ⟨kept, hsteps, hkept⟩ := steps_of_parts hparts hdot
  have hnone : kept = [] := by
    rcases hkept with rfl | ⟨rest, hrest, -⟩
    · rfl
    · cases hrest
  subst hnone
  rw [parent?_eq, hsteps, isAbsolute_ofNames true _ hnames]
  simp

end AtWork

/-- What is read at a name in a directory. -/
theorem Leads.read {fs : FileSystem} {path : Path} {place : Place} {name : String} (h : fs.Leads path place)
    (hname : IsName name) : fs.read (path.join name) = match fs.find? (place ++ [name]) with
      | some (.file content) => .ok content
      | some .directory => .error .isADirectory
      | none => .error .notFound := by
  unfold FileSystem.read follow
  rw [h.locate hname, asksForDirectory_join path hname]
  simp only [bind, Except.bind]
  cases fs.find? (place ++ [name]) with
  | none => rfl
  | some node => cases node <;> rfl

end FileSystem

/-- The files of variables that a program looks for are the same, except that directories may have come to be where
none was, and so is the file of settings. -/
structure Reloads (w w' : World) : Prop where
  environment : w'.environment = w.environment
  workingDirectory : w'.files.workingDirectory = w.files.workingDirectory
  before : w.files.AtWork
  after : w'.files.AtWork
  dotenv : ∀ place, place <+: w.files.workingDirectory →
    w'.files.find? (place ++ [".env"]) = w.files.find? (place ++ [".env"]) ∨
      w.files.find? (place ++ [".env"]) = none ∧ w'.files.find? (place ++ [".env"]) = some .directory
  settings : w'.files.find? (w.files.workingDirectory ++ [Settings.filePath]) =
    w.files.find? (w.files.workingDirectory ++ [Settings.filePath])

/-- What is written at the path changes no file that settings are found in: neither is it one of them, nor does a
directory on the way to it take the place of the file of settings. -/
structure FileSystem.Apart (fs : FileSystem) (path : Path) : Prop where
  settings : fs.named path ≠ fs.workingDirectory ++ [Settings.filePath]
  way : fs.find? (fs.workingDirectory ++ [Settings.filePath]) = none →
    ¬ fs.Passes path (fs.workingDirectory ++ [Settings.filePath])
  dotenv : ∀ place, place <+: fs.workingDirectory → fs.named path ≠ place ++ [".env"]

theorem World.Reaches.reloads {w w' : World} {paths : List Path} (h : w.Reaches w' paths) (hwork : w.files.AtWork)
    (hapart : ∀ path ∈ paths, w.files.Apart path) : Reloads w w' where
  environment := h.environment
  workingDirectory := h.files.workingDirectory
  before := hwork
  after := by
    constructor
    · rw [h.files.workingDirectory]
      exact hwork.names
    · rw [h.files.workingDirectory]
      exact fun place hplace => h.files.directory place (hwork.directories place hplace)
  dotenv := by
    intro place hplace
    rcases h.files.found (place ++ [".env"]) with hsame | ⟨node, hnode, ⟨path, hpath, -, hwritten⟩, hold⟩
    · exact .inl hsame
    · rcases hwritten with rfl | hplaced
      · rcases hold with hnone | ⟨_, _, -, hfile⟩
        · exact .inr ⟨hnone, hnode⟩
        · cases hfile
      · exact absurd hplaced.symm ((hapart path hpath).dotenv place hplace)
  settings := by
    rcases h.files.found (w.files.workingDirectory ++ [Settings.filePath]) with
      hsame | ⟨node, -, ⟨path, hpath, hpasses, hwritten⟩, hold⟩
    · exact hsame
    · rcases hwritten with rfl | hplaced
      · rcases hold with hnone | ⟨_, _, -, hfile⟩
        · exact absurd hpasses ((hapart path hpath).way hnone)
        · cases hfile
      · exact absurd hplaced.symm (hapart path hpath).settings

theorem isName_dotenv : IsName ".env" := isName_of_length (by decide) (by decide)

theorem isName_settings : IsName Settings.filePath := isName_of_length (by decide) (by decide)

namespace Dotenv

variable {w w' : World}

/-- The search for a file of variables passes by directories as it does by what is missing. -/
theorem agrees_find (h : Reloads w w') (levels : Nat) (place : Place) (hplace : place <+: w.files.workingDirectory) :
    Agrees w w' (find levels (ofNames true place) : StateM World (Option ByteArray)) := by
  induction levels generalizing place with
  | zero =>
    unfold find
    exact agrees_pure none
  | succ levels ih =>
    have habove : Agrees w w' (find.above levels (ofNames true place) : StateM World (Option ByteArray)) := by
      unfold find.above
      rcases List.eq_nil_or_concat place with rfl | ⟨above, name, rfl⟩
      · exact agrees_pure none
      · rw [List.concat_eq_append] at hplace ⊢
        rw [h.before.parent_concat hplace]
        exact ih above ((List.prefix_append above [name]).trans hplace)
    have hread := (h.before.leads hplace).read isName_dotenv
    have hread' := (h.after.leads (h.workingDirectory ▸ hplace)).read isName_dotenv
    have hrun (t : World) : Id.run ((Disk.read ((ofNames true place).join ".env") : StateM World _).run t) =
      (t.files.read ((ofNames true place).join ".env"), t) := rfl
    unfold find
    rcases h.dotenv place hplace with hsame | ⟨hnone, hdirectory⟩
    · rw [hsame, ← hread] at hread'
      have hagree : Agrees w w' (Disk.read ((ofNames true place).join ".env") : StateM World (Except IoError ByteArray)) :=
        ⟨_, hrun w, (hrun w').trans (by rw [hread'])⟩
      refine hagree.bind fun result => ?_
      split
      · exact agrees_pure _
      · exact habove
      · exact habove
      · exact agrees_pure _
    · obtain ⟨found, hfound, hfound'⟩ := habove
      rw [hnone] at hread
      rw [hdirectory] at hread'
      have hmissing := (hrun w).trans (congrArg (·, w) hread)
      have hthere := (hrun w').trans (congrArg (·, w') hread')
      exact ⟨found, (run_bind_of_run hmissing).trans hfound, (run_bind_of_run hthere).trans hfound'⟩

theorem agrees_load (h : Reloads w w') : Agrees w w' (load : StateM World (List (String × String))) := by
  have hdirectory : Agrees w w' (Disk.currentDirectory : StateM World Path) :=
    ⟨_, rfl, congrArg (fun place : Place => ("/" ++ "/".intercalate place, w')) h.workingDirectory⟩
  obtain ⟨directory, hrun, hrun'⟩ := hdirectory
  obtain rfl : ofNames true w.files.workingDirectory = directory := (Prod.mk.inj hrun).1
  obtain ⟨content, hfind, hfind'⟩ := agrees_find h ((ofNames true w.files.workingDirectory).parts.length + 1)
    w.files.workingDirectory List.prefix_rfl
  unfold load
  cases content with
  | none => exact ⟨[], (run_bind_of_run hrun).trans (run_bind_of_run hfind),
      (run_bind_of_run hrun').trans (run_bind_of_run hfind')⟩
  | some content =>
    obtain ⟨added, hadded, hadded'⟩ := agrees_additions h.environment [] (linesOf content)
    exact ⟨added, (run_bind_of_run hrun).trans ((run_bind_of_run hfind).trans hadded),
      (run_bind_of_run hrun').trans ((run_bind_of_run hfind').trans hadded')⟩

end Dotenv

theorem Settings.agrees_load {w w' : World} (h : Reloads w w') (env : String → Option String) :
    Agrees w w' (load env : Attempt (StateM World) Settings).run := by
  have hlocate : w.files.locate filePath = .ok (w.files.workingDirectory ++ [filePath]) :=
    h.before.leads_here.locate isName_settings
  have hlocate' : w'.files.locate filePath = .ok (w.files.workingDirectory ++ [filePath]) :=
    h.workingDirectory ▸ h.after.leads_here.locate isName_settings
  have hread : w'.files.read filePath = w.files.read filePath := by
    have hthen := h.before.leads_here.read isName_settings
    have hnow := h.after.leads_here.read isName_settings
    rw [h.workingDirectory, h.settings] at hnow
    exact hnow.trans hthen.symm
  have hholds : w'.files.holds filePath = w.files.holds filePath := by
    rw [Bool.eq_iff_iff, FileSystem.holds_iff, FileSystem.holds_iff, ← w.files.locate_named _ _ hlocate,
      ← w'.files.locate_named _ _ hlocate', hlocate, hlocate', h.settings]
  let here (s t : World) : Prop := s = w ∧ t = w'
  have hasked : Parallel here here Eq (liftM (Disk.holds filePath : StateM World Bool))
      (liftM (Disk.holds filePath : StateM World Bool)) := by
    refine parallel_lift fun s t hworlds => ?_
    obtain ⟨rfl, rfl⟩ := hworlds
    exact ⟨hholds.symm, rfl, rfl⟩
  have htext : Parallel here here Eq (liftM (Disk.readText filePath : StateM World (Except IoError String)))
      (liftM (Disk.readText filePath : StateM World (Except IoError String))) := by
    refine parallel_lift fun s t hworlds => ?_
    obtain ⟨rfl, rfl⟩ := hworlds
    exact ⟨congrArg (·.bind FileSystem.decode) hread.symm, rfl, rfl⟩
  have hfile : Parallel here here Eq (ofFile filePath : Attempt (StateM World) Settings) (ofFile filePath) := by
    refine hasked.bind fun held held' hheld => ?_
    obtain rfl : held = held' := hheld
    split
    · refine htext.bind fun text text' hsame => ?_
      obtain rfl : text = text' := hsame
      split
      · exact parallel_throw _
      · split
        · exact parallel_pure rfl
        · exact parallel_throw _
    · exact parallel_pure rfl
  have hload : Parallel here here Eq (load env : Attempt (StateM World) Settings) (load env) :=
    hfile.bind fun s s' hs => parallel_pure (congrArg (·.override env) hs)
  obtain ⟨hresult, hstate, hstate'⟩ := hload w w' ⟨rfl, rfl⟩
  exact ⟨_, Prod.ext rfl hstate, Prod.ext hresult.eq.symm hstate'⟩

namespace CommandLine.Catalog

open Session

variable {w w' : World}

theorem agrees_settings (h : Reloads w w') (added : List (String × String)) :
    ∃ result, Id.run (((settings added : Session (StateM World) Settings).run.run "").run w) = ((result, ""), w) ∧
      Id.run (((settings added : Session (StateM World) Settings).run.run "").run w') = ((result, ""), w') := by
  obtain ⟨values, hvalues, hvalues'⟩ := Dotenv.agrees_values h.environment added
  obtain ⟨result, hload, hload'⟩ := Settings.agrees_load h fun name => (values.lookup name).join
  have hrun (t : World) (hlooked : Id.run ((Settings.variableNames.mapM fun name => do
        pure (name, ← Dotenv.lookup added name) : StateM World (List (String × Option String))).run t) = (values, t))
      (hloaded : Id.run ((Settings.load (fun name => (values.lookup name).join) :
        Attempt (StateM World) Settings).run.run t) = (result, t)) :
      Id.run (((settings added : Session (StateM World) Settings).run.run "").run t) =
        ((result.mapError (Trouble.mk none), ""), t) := by
    have hlift : Id.run (((liftM (Settings.variableNames.mapM fun name => do
        pure (name, ← Dotenv.lookup added name) : StateM World (List (String × Option String))) :
        Session (StateM World) (List (String × Option String))).run.run "").run t) = ((.ok values, ""), t) :=
      (succeeds_lift _ "" t values "" t).2 ⟨hlooked, rfl⟩
    unfold settings
    rw [run_bind, hlift]
    exact congrArg (fun ends : Except Failure Settings × World =>
      ((ends.1.mapError (Trouble.mk none), ""), ends.2)) hloaded
  exact ⟨_, hrun w hvalues hload, hrun w' hvalues' hload'⟩

/-- A program that is started later finds the same settings. -/
theorem found_reloaded (h : Reloads w w') : found w' = found w := by
  obtain ⟨added', hadded, hadded'⟩ := Dotenv.agrees_load h
  obtain ⟨result, hsettings, hsettings'⟩ := agrees_settings h added'
  have hsame : added w = added' := congrArg Prod.fst hadded
  have hsame' : added w' = added' := congrArg Prod.fst hadded'
  unfold found
  rw [hsame, hsame']
  exact (congrArg (·.1.1) hsettings').trans (congrArg (·.1.1) hsettings).symm

/-- Settings do not depend on the time. -/
theorem found_at (h : w.files.AtWork) (t : Timestamp) : found { w with now := t } = found w := by
  have hsame : w.Reaches { w with now := t } [] := ⟨.refl _ _, rfl⟩
  exact found_reloaded (hsame.reloads h fun path hpath => by cases hpath)

/-- Without settings a program ends with the trouble it had in finding them, and changes nothing. -/
theorem run_program_of_trouble (arguments : List String) (task : Task) (w : World) (trouble : Trouble)
    (hparse : parse arguments = .perform task) (hwork : w.files.AtWork) (hfound : found w = .error trouble) :
    Id.run ((program arguments : StateM World Outcome).run w) = (⟨1, "", trouble.report⟩, w) := by
  have hreloads := (World.Reaches.refl w []).reloads hwork fun path hpath => by cases hpath
  obtain ⟨result, hsettings, -⟩ := agrees_settings hreloads (added w)
  have hresult : found w = result := congrArg (·.1.1) hsettings
  rw [← hresult, hfound] at hsettings
  rw [run_program_of_parsed arguments task w hparse, run_outcome, run_bind, hsettings]

end CommandLine.Catalog

end CardIndex
