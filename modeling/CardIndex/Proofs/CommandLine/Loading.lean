import CardIndex.CommandLine.Catalog
import CardIndex.Proofs.CommandLine.Session
import CardIndex.World

namespace CardIndex

/-- An operation that changes nothing. -/
def Looks {α : Type} (x : StateM World α) : Prop := ∀ w, (Id.run (x.run w)).2 = w

variable {α β : Type}

theorem looks_pure (a : α) : Looks (pure a) := fun _ => rfl

theorem Looks.bind {x : StateM World α} {f : α → StateM World β} (hx : Looks x) (hf : ∀ a, Looks (f a)) :
    Looks (x >>= f) := by
  intro w
  have hr : (Id.run ((x >>= f).run w)).2 =
      (Id.run ((f (Id.run (x.run w)).1).run (Id.run (x.run w)).2)).2 := rfl
  rw [hr, hf, hx]

theorem run_bind_of_run {x : StateM World α} {f : α → StateM World β} {w t : World} {a : α}
    (h : Id.run (x.run w) = (a, t)) : Id.run ((x >>= f).run w) = Id.run ((f a).run t) := by
  have hr : Id.run ((x >>= f).run w) = Id.run ((f (Id.run (x.run w)).1).run (Id.run (x.run w)).2) := rfl
  rw [hr, h]

theorem run_mapM {f : α → StateM World β} {g : α → β} {w : World}
    (h : ∀ a, Id.run ((f a).run w) = (g a, w)) (as : List α) : Id.run ((as.mapM f).run w) = (as.map g, w) := by
  induction as with
  | nil => rfl
  | cons a as ih =>
    rw [List.mapM_cons, run_bind_of_run (h a), run_bind_of_run ih]
    rfl

/-- An operation that changes neither of two worlds and finds the same in both. -/
def Agrees (w w' : World) (x : StateM World α) : Prop := ∃ a, Id.run (x.run w) = (a, w) ∧ Id.run (x.run w') = (a, w')

theorem Looks.of_agrees {x : StateM World α} (h : ∀ w, Agrees w w x) : Looks x := by
  intro w
  obtain ⟨a, hrun, -⟩ := h w
  rw [hrun]

section

variable {w w' : World}

theorem agrees_pure (a : α) : Agrees w w' (pure a) := ⟨a, rfl, rfl⟩

theorem Agrees.bind {x : StateM World α} {f : α → StateM World β} (hx : Agrees w w' x) (hf : ∀ a, Agrees w w' (f a)) :
    Agrees w w' (x >>= f) := by
  obtain ⟨a, hx, hx'⟩ := hx
  obtain ⟨b, hf, hf'⟩ := hf a
  exact ⟨b, (run_bind_of_run hx).trans hf, (run_bind_of_run hx').trans hf'⟩

theorem Agrees.mapM {f : α → StateM World β} (hf : ∀ a, Agrees w w' (f a)) (as : List α) : Agrees w w' (as.mapM f) := by
  induction as with
  | nil => exact agrees_pure _
  | cons a as ih =>
    rw [List.mapM_cons]
    exact (hf a).bind fun b => ih.bind fun bs => agrees_pure _

end

namespace Dotenv

section

variable {w w' : World} (henv : w'.environment = w.environment)

include henv

theorem agrees_lookup (added : List (String × String)) (name : String) :
    Agrees w w' (lookup added name : StateM World (Option String)) := by
  have hget : Agrees w w' (Environment.get? name : StateM World (Option String)) :=
    ⟨w.environment.lookup name, rfl, congrArg (fun environment => (List.lookup name environment, w')) henv⟩
  exact hget.bind fun _ => agrees_pure _

theorem agrees_expand (added : List (String × String)) (parts : List Part) :
    Agrees w w' (expand added parts : StateM World String) := by
  induction parts with
  | nil => exact agrees_pure _
  | cons part parts ih =>
    rcases part with c | name
    · exact ih.bind fun _ => agrees_pure _
    · exact (agrees_lookup henv added _).bind fun _ => ih.bind fun _ => agrees_pure _

theorem agrees_additions (added : List (String × String)) (lines : List (Option String)) :
    Agrees w w' (additions added lines : StateM World (List (String × String))) := by
  induction lines generalizing added with
  | nil => exact agrees_pure _
  | cons text rest ih =>
    unfold additions
    split
    · exact agrees_pure _
    · exact ih added
    · refine (agrees_expand henv added _).bind fun value => (agrees_lookup henv added _).bind fun present => ?_
      split
      · exact ih added
      · exact ih _

/-- The values of all variables that stand for settings. -/
theorem agrees_values (added : List (String × String)) : Agrees w w' (Settings.variableNames.mapM fun name => do
    pure (name, ← lookup added name) : StateM World (List (String × Option String))) :=
  Agrees.mapM (fun name => (agrees_lookup henv added name).bind fun value => agrees_pure (name, value)) _

end

/-- Where the file of variables lies depends on the files alone. -/
theorem agrees_find_of_files {w w' : World} (h : w'.files = w.files) (levels : Nat) (directory : Path) :
    Agrees w w' (find levels directory : StateM World (Option ByteArray)) := by
  induction levels generalizing directory with
  | zero =>
    unfold find
    exact agrees_pure none
  | succ levels ih =>
    have habove : Agrees w w' (find.above levels directory : StateM World (Option ByteArray)) := by
      unfold find.above
      split
      · exact ih _
      · exact agrees_pure none
    have hread : Agrees w w' (Disk.read (directory.join ".env") : StateM World (Except IoError ByteArray)) :=
      ⟨w.files.read (directory.join ".env"), rfl,
        congrArg (fun fs : FileSystem => (fs.read (directory.join ".env"), w')) h⟩
    unfold find
    refine hread.bind fun content => ?_
    split
    · exact agrees_pure _
    · exact habove
    · exact habove
    · exact agrees_pure _

theorem looks_find (levels : Nat) (directory : Path) :
    Looks (find levels directory : StateM World (Option ByteArray)) :=
  Looks.of_agrees fun _ => agrees_find_of_files rfl levels directory

theorem looks_load : Looks (load : StateM World (List (String × String))) := by
  refine Looks.bind (fun _ => rfl) fun directory => (looks_find _ _).bind fun content => ?_
  split
  · exact Looks.of_agrees fun w => agrees_additions rfl _ _
  · exact looks_pure _

/-- The file of variables, in the working directory or else in the nearest one above. -/
def file? (w : World) : Option ByteArray :=
  let directory : Path := "/" ++ "/".intercalate w.files.workingDirectory
  (Id.run ((find (directory.parts.length + 1) directory : StateM World (Option ByteArray)).run w)).1

/-- The file in the working directory is found before any other. -/
theorem file?_of_read (w : World) {content : ByteArray}
    (h : w.files.read (Path.join ("/" ++ "/".intercalate w.files.workingDirectory) ".env") = .ok content) :
    file? w = some content := by
  have hread : Id.run ((Disk.read (Path.join ("/" ++ "/".intercalate w.files.workingDirectory) ".env") :
    StateM World (Except IoError ByteArray)).run w) = (.ok content, w) := Prod.ext h rfl
  unfold file? find
  exact congrArg Prod.fst (run_bind_of_run hread)

theorem run_load (w : World) : Id.run ((load : StateM World (List (String × String))).run w) = match file? w with
    | some content => Id.run ((additions [] (linesOf content) : StateM World _).run w)
    | none => ([], w) := by
  have hdirectory : Id.run ((Disk.currentDirectory : StateM World Path).run w) =
    ("/" ++ "/".intercalate w.files.workingDirectory, w) := rfl
  have hfind : Id.run ((find ((Path.parts ("/" ++ "/".intercalate w.files.workingDirectory)).length + 1)
      ("/" ++ "/".intercalate w.files.workingDirectory) : StateM World (Option ByteArray)).run w) = (file? w, w) :=
    Prod.ext rfl (looks_find _ _ w)
  unfold load
  rw [run_bind_of_run hdirectory, run_bind_of_run hfind]
  cases file? w with
  | some content => rfl
  | none => rfl

end Dotenv

theorem Settings.state_of_load (env : String → Option String) (w w' : World) (s : Settings)
    (h : (load env : Attempt (StateM World) Settings).Succeeds w s w') : w' = w := by
  simp only [load, ofFile, Attempt.succeeds_bind, Attempt.succeeds_lift, Attempt.succeeds_pure] at h
  obtain ⟨read, t, ⟨holds, t', hholds, h⟩, -, rfl⟩ := h
  obtain ⟨-, rfl⟩ := Prod.mk.inj hholds
  split at h
  · simp only [Attempt.succeeds_bind, Attempt.succeeds_lift] at h
    obtain ⟨text, t'', htext, h⟩ := h
    obtain ⟨-, rfl⟩ := Prod.mk.inj htext
    split at h
    · exact absurd h (Attempt.not_succeeds_throw _ _ _ _)
    · split at h
      · exact ((Attempt.succeeds_pure _ _ _ _).1 h).2.symm
      · exact absurd h (Attempt.not_succeeds_throw _ _ _ _)
  · exact ((Attempt.succeeds_pure _ _ _ _).1 h).2.symm

namespace CommandLine.Catalog

open Session

theorem state_of_settings (added : List (String × String)) (w w' : World) (s : Settings)
    (printed printed' : String)
    (h : Succeeds (settings added : Session (StateM World) Settings) printed w s printed' w') :
    w' = w ∧ printed' = printed := by
  obtain ⟨values, p, t, hvalues, hload⟩ := (succeeds_bind _ _ _ _ _ _ _).1 h
  obtain ⟨hrun, rfl⟩ := (succeeds_lift _ _ _ _ _ _).1 hvalues
  obtain ⟨hloaded, rfl⟩ := (succeeds_attempt _ _ _ _ _ _ _).1 hload
  have hlooks := Looks.of_agrees (fun w => Dotenv.agrees_values rfl added) w
  rw [hrun] at hlooks
  exact ⟨(Settings.state_of_load _ t w' s hloaded).trans hlooks, rfl⟩

/-- The variables that a program finds in a file. -/
def added (w : World) : List (String × String) :=
  (Id.run ((Dotenv.load : StateM World (List (String × String))).run w)).1

theorem added_of_read (w : World) (content : ByteArray)
    (h : w.files.read (Path.join ("/" ++ "/".intercalate w.files.workingDirectory) ".env") = .ok content) :
    added w = (Id.run ((Dotenv.additions [] (Dotenv.linesOf content) : StateM World _).run w)).1 := by
  rw [added, Dotenv.run_load, Dotenv.file?_of_read w h]

/-- The settings that a program finds when it starts. -/
def found (w : World) : Except Trouble Settings :=
  (Id.run (((settings (added w) : Session (StateM World) Settings).run.run "").run w)).1.1

theorem settings_succeeds (w : World) (s : Settings) (hfound : found w = .ok s) :
    Succeeds (settings (added w)) "" w s "" w := by
  have hrun : Succeeds (settings (added w)) "" w s
      (Id.run (((settings (added w) : Session (StateM World) Settings).run.run "").run w)).1.2
      (Id.run (((settings (added w) : Session (StateM World) Settings).run.run "").run w)).2 :=
    Prod.ext (Prod.ext hfound rfl) rfl
  obtain ⟨hworld, hprinted⟩ := state_of_settings _ w _ s "" _ hrun
  rw [hworld, hprinted] at hrun
  exact hrun

/-- A program that knows its task looks for settings first. -/
theorem run_program_of_parsed (arguments : List String) (task : Task) (w : World)
    (hparse : parse arguments = .perform task) :
    Id.run ((program arguments : StateM World Outcome).run w) =
      Id.run ((outcome (settings (added w) >>= fun s => perform (task.adjust s) task) : StateM World Outcome).run w) := by
  have hlooks := Dotenv.looks_load w
  have hprogram : Id.run ((program arguments : StateM World Outcome).run w) =
      Id.run ((outcome (settings (added w) >>= fun s => perform (task.adjust s) task) : StateM World Outcome).run
        (Id.run ((Dotenv.load : StateM World (List (String × String))).run w)).2) := by
    unfold program
    rw [StateT.run_bind, hparse]
    rfl
  rw [hprogram, hlooks]

/-- A program does its task with the settings that it finds, from where it started. -/
theorem run_program (arguments : List String) (task : Task) (w : World) (s : Settings)
    (hparse : parse arguments = .perform task) (hfound : found w = .ok s) :
    Id.run ((program arguments : StateM World Outcome).run w) =
      Id.run ((outcome (perform (task.adjust s) task) : StateM World Outcome).run w) := by
  have hsettings : Id.run (((settings (added w) : Session (StateM World) Settings).run.run "").run w) =
      ((.ok s, ""), w) := settings_succeeds w s hfound
  rw [run_program_of_parsed arguments task w hparse, run_outcome, run_outcome, run_bind, hsettings]

/-- The code is zero if and only if the task succeeds with the settings that were found. -/
theorem code_eq_zero_iff (arguments : List String) (task : Task) (w w' : World) (out : Outcome) (s : Settings)
    (hparse : parse arguments = .perform task) (hfound : found w = .ok s)
    (hrun : Id.run ((program arguments : StateM World Outcome).run w) = (out, w')) :
    out.code = 0 ↔ Succeeds (perform (task.adjust s) task) "" w () out.stdout w' := by
  rw [run_program arguments task w s hparse hfound] at hrun
  exact outcome_code_eq_zero_iff _ w w' out hrun

theorem run_of_succeeds (arguments : List String) (task : Task) (w w' : World) (printed : String) (s : Settings)
    (hparse : parse arguments = .perform task) (hfound : found w = .ok s)
    (h : Succeeds (perform (task.adjust s) task) "" w () printed w') :
    Id.run ((program arguments : StateM World Outcome).run w) = (⟨0, printed, ""⟩, w') := by
  have hrun : Id.run (((perform (task.adjust s) task : Session (StateM World) Unit).run.run "").run w) =
      ((.ok (), printed), w') := h
  rw [run_program arguments task w s hparse hfound, run_outcome, hrun]

end CommandLine.Catalog

end CardIndex
