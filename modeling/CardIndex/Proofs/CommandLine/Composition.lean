import CardIndex.Proofs.CommandLine.Flags
import CardIndex.Proofs.CommandLine.Reloading
import CardIndex.Proofs.CommandLine.Run
import CardIndex.Proofs.Dataset.Retiming

namespace CardIndex

namespace CommandLine.Catalog

open Session

/-- Where files hold the same, cards are enriched in the same way at any time. -/
theorem sideBySide_enrich (s : Settings) : SideBySide (World.Corresponds Eq) World.UpToTimes
    (enrich s : Session (StateM World) Unit) (enrich s : Session (StateM World) Unit) := by
  refine (sideBySide_attempt _ (parallel_transform _ _ _)).bind fun summary => ?_
  exact (sideBySide_say _).bind fun _ => (sideBySide_say _).bind fun _ => sideBySide_say _

theorem sideBySide_publish (s : Settings) : SideBySide World.UpToTimes World.UpToTimes
    (publish s : Session (StateM World) Unit) (publish s : Session (StateM World) Unit) := by
  refine (sideBySide_settled _).bind fun table => (sideBySide_settled _).bind fun store => ?_
  have hpublish : Parallel World.UpToTimes World.UpToTimes Eq
      (do
        let dataset ← readDataset s.paths.dataset
        (Publisher.standard store.store table).publish dataset.cards : Attempt (StateM World) PublishReport)
      (do
        let dataset ← readDataset s.paths.dataset
        (Publisher.standard store.store table).publish dataset.cards : Attempt (StateM World) PublishReport) := by
    refine (parallel_readDataset _).bind fun d d' hcards => ?_
    rw [show d'.cards = d.cards from hcards.symm]
    exact Publisher.parallel_standard store table d.cards
  exact (sideBySide_attempt _ hpublish).bind fun report => sideBySide_say _

/-- Enriching touches the world in turning the dump into a dataset, and in nothing else. -/
theorem state_of_enrich (s : Settings) (printed : String) (w : World) :
    (Id.run (((enrich s : Session (StateM World) Unit).run.run printed).run w)).2 =
      (Id.run ((transform s.paths.raw s.paths.dataset s.paths.manifest :
        Attempt (StateM World) TransformSummary).run.run w)).2 := by
  unfold enrich within
  rw [run_bind, run_attempt]
  cases Id.run ((transform s.paths.raw s.paths.dataset s.paths.manifest :
    Attempt (StateM World) TransformSummary).run.run w) with
  | mk result t =>
    cases result with
    | error f => rfl
    | ok summary => rfl

theorem find?_publishRules {name : String} {rule : OptionRule}
    (h : runRules.find? (fun rule => "--" ++ rule.name = name) = some rule) :
    publishRules.find? (fun rule => "--" ++ rule.name = name) = some rule ∧ rule.name = "table" := by
  obtain rfl := List.mem_singleton.1 (List.mem_of_find?_eq_some h)
  have hname := List.find?_some h
  obtain rfl : "--table" = name := of_decide_eq_true hname
  exact ⟨rfl, rfl⟩

theorem lookup_accept {rule : OptionRule} {value : String} {given given' : Given} {name : String}
    (h : accept rule value given = some given') (hname : rule.name ≠ name) : given'.lookup name = given.lookup name := by
  obtain ⟨-, rfl⟩ := of_accept h
  rw [List.lookup_append, List.lookup_cons, beq_eq_false_iff_ne.2 hname.symm]
  simp

theorem options_publishRules (arguments : List String) (given g : Given)
    (h : options runRules given arguments = .perform g) (hgiven : given.lookup "dataset" = none) :
    options publishRules given arguments = .perform g ∧ g.lookup "dataset" = none := by
  have hother : "table" ≠ "dataset" := by decide
  fun_induction options runRules given arguments with
  | case1 given => exact ⟨h, Demand.perform.inj h ▸ hgiven⟩
  | case2 given => exact ⟨h, Demand.perform.inj h ▸ hgiven⟩
  | case5 given argument hhelp name rule value rest hrule given' haccept hlast hsplit ih =>
    obtain ⟨hrule, hname⟩ := find?_publishRules hrule
    obtain ⟨hrest, hdataset⟩ := ih h ((lookup_accept haccept (hname ▸ hother)).trans hgiven)
    refine ⟨?_, hdataset⟩
    simp [options, hhelp, hsplit, hrule, haccept, hrest]
  | case7 given argument hhelp name rule value rest hrule hvalue given' haccept hlast hsplit ih =>
    obtain ⟨hrule, hname⟩ := find?_publishRules hrule
    obtain ⟨hrest, hdataset⟩ := ih h ((lookup_accept haccept (hname ▸ hother)).trans hgiven)
    refine ⟨?_, hdataset⟩
    simp [options, hhelp, hsplit, hrule, hvalue, haccept, hrest]
  | _ => cases h

theorem parse_publish (rest : List String) (table? : Option String)
    (h : parse ("run" :: rest) = .perform (.run table?)) : parse ("publish" :: rest) = .perform (.publish none table?) := by
  have hrun : parse ("run" :: rest) = (options runRules [] rest).map fun g => .run (g.lookup "table") := rfl
  have hpublish : parse ("publish" :: rest) =
      (options publishRules [] rest).map fun g => .publish (g.lookup "dataset") (g.lookup "table") := rfl
  rw [hrun] at h
  cases hoptions : options runRules [] rest with
  | perform g =>
    rw [hoptions] at h
    obtain ⟨hgiven, hdataset⟩ := options_publishRules rest [] g hoptions rfl
    obtain rfl : g.lookup "table" = table? := Task.run.inj (Demand.perform.inj h)
    rw [hpublish, hgiven, Demand.map, hdataset]
  | help => rw [hoptions] at h; cases h
  | version => rw [hoptions] at h; cases h
  | misuse => rw [hoptions] at h; cases h

/-- What the program leaves behind when it is started with these arguments, and the world that it leaves. -/
def started (arguments : List String) (w : World) : Outcome × World :=
  Id.run ((program arguments : StateM World Outcome).run w)

/-- What a program that ends in this way leaves behind. -/
def ending (printed : String) : Except Trouble Unit → Outcome
  | .ok _ => ⟨0, printed, ""⟩
  | .error trouble => ⟨1, printed, trouble.report⟩

theorem stdout_ending (printed : String) (result : Except Trouble Unit) : (ending printed result).stdout = printed := by
  cases result with
  | ok u => rfl
  | error trouble => rfl

theorem started_of_performed {arguments : List String} {task : Task} {w t : World} {s : Settings}
    {result : Except Trouble Unit} {printed : String} (hparse : parse arguments = .perform task) (hfound : found w = .ok s)
    (hrun : Id.run (((perform (task.adjust s) task : Session (StateM World) Unit).run.run "").run w) =
      ((result, printed), t)) : started arguments w = (ending printed result, t) := by
  unfold started
  rw [run_program arguments task w s hparse hfound, run_outcome, hrun]
  cases result with
  | ok u => rfl
  | error trouble => rfl

theorem started_of_trouble {arguments : List String} {task : Task} {w : World} {trouble : Trouble}
    (hparse : parse arguments = .perform task) (hwork : w.files.AtWork) (hfound : found w = .error trouble) :
    started arguments w = (ending "" (.error trouble), w) :=
  run_program_of_trouble arguments task w trouble hparse hwork hfound

def enrichHeading : String := "\n📥 Step 1: Enriching cards...\n"

def publishHeading : String := "\n📤 Step 2: Publishing catalog...\n"

def noTable : Trouble := ⟨none, .settings .noTable⟩

/-- Without a table neither a full run nor publishing begins. -/
theorem run_perform_of_noTable {s : Settings} (h : Settings.filled? s.catalog.table = none) (table? : Option String)
    (dataset? : Option Path) (w : World) :
    Id.run (((perform s (.run table?) : Session (StateM World) Unit).run.run "").run w) = ((.error noTable, ""), w) ∧
      Id.run (((perform s (.publish dataset? table?) : Session (StateM World) Unit).run.run "").run w) =
        ((.error noTable, ""), w) := by
  have htable : s.requireTable = .error .noTable := by
    unfold Settings.requireTable
    rw [h]
  constructor
  · rw [perform, run_bind, run_settled, htable]
    rfl
  · rw [perform, publish, run_bind, run_settled, htable]
    rfl

example : noTable.report = "Error: Configuration error: CATALOG_TABLE is not set\n" := by decide

/-- With a table a full run enriches the cards and, if they can be enriched, publishes them. -/
theorem run_perform_run {s : Settings} (h : (Settings.filled? s.catalog.table).isSome) (table? : Option String)
    (w : World) : Id.run (((perform s (.run table?) : Session (StateM World) Unit).run.run "").run w) =
      match Id.run (((enrich s : Session (StateM World) Unit).run.run enrichHeading).run w) with
      | ((.ok _, printed), t) =>
        Id.run (((publish s : Session (StateM World) Unit).run.run (printed ++ publishHeading)).run t)
      | ((.error trouble, printed), t) => ((.error trouble, printed), t) := by
  obtain ⟨table, htable⟩ := Option.isSome_iff_exists.1 h
  have hrequired : s.requireTable = .ok table := by
    unfold Settings.requireTable
    rw [htable]
  have hfirst : "" ++ "\n📥 Step 1: Enriching cards..." ++ "\n" = enrichHeading := by decide
  have hsecond (printed : String) : printed ++ "\n📤 Step 2: Publishing catalog..." ++ "\n" =
      printed ++ publishHeading := String.append_assoc
  rw [perform, run_bind, run_settled, hrequired]
  dsimp only [Except.mapError]
  rw [run_bind, run_say, hfirst]
  dsimp only
  rw [run_bind]
  rcases Id.run (((enrich s : Session (StateM World) Unit).run.run enrichHeading).run w) with
    ⟨⟨trouble | u, printed⟩, t⟩
  · rfl
  · dsimp only
    rw [run_bind, run_say, hsecond]

/-- The whole is the first program and, if that succeeds, the second behind it: the same code, the same errors, headings
in front of what both print, and the same files but for times. -/
inductive InTurn (heading : String) (whole first : Outcome × World) (second : World → Outcome × World) : Prop
  | stopped (failed : first.1.code ≠ 0) (code : whole.1.code = first.1.code)
      (stdout : whole.1.stdout = heading ++ first.1.stdout) (stderr : whole.1.stderr = first.1.stderr)
      (files : World.UpToTimes whole.2 first.2)
  | finished (succeeded : first.1.code = 0) (code : whole.1.code = (second first.2).1.code)
      (stdout : whole.1.stdout = heading ++ first.1.stdout ++ publishHeading ++ (second first.2).1.stdout)
      (stderr : whole.1.stderr = first.1.stderr ++ (second first.2).1.stderr)
      (files : World.UpToTimes whole.2 (second first.2).2)

theorem inTurn_stopped {heading more : String} {trouble : Trouble} {whole first : World}
    {second : World → Outcome × World} (h : World.UpToTimes whole first) :
    InTurn heading (ending (heading ++ more) (.error trouble), whole) (ending more (.error trouble), first) second :=
  .stopped (show (1 : UInt32) ≠ 0 by decide) rfl rfl rfl h

theorem inTurn_finished {heading more more' : String} {result : Except Trouble Unit} {whole first last : World}
    {second : World → Outcome × World} (hsecond : second first = (ending more' result, last))
    (h : World.UpToTimes whole last) :
    InTurn heading (ending (heading ++ more ++ publishHeading ++ more') result, whole) (ending more (.ok ()), first)
      second := by
  refine .finished rfl ?_ ?_ ?_ ?_
  all_goals rw [hsecond]
  · cases result with
    | ok u => rfl
    | error trouble => rfl
  · dsimp only
    rw [stdout_ending, stdout_ending, stdout_ending]
  · cases result with
    | ok u => rfl
    | error trouble => exact String.empty_append.symm
  · exact h

/-- The heading of the first step stands where settings were found. -/
def headingOf : Except Trouble Settings → String
  | .ok _ => enrichHeading
  | .error _ => ""

theorem inTurn_of_found {rest : List String} {table? : Option String}
    (parsed : parse ("run" :: rest) = .perform (.run table?)) {w : World} {s : Settings} (hfound : found w = .ok s)
    (hwork : w.files.AtWork) (htable : (Settings.filled? (table?.or s.catalog.table)).isSome)
    (hdataset : w.files.Apart s.paths.dataset) (hmanifest : w.files.Apart s.paths.manifest)
    (enriching publishing : Timestamp) :
    InTurn enrichHeading (started ("run" :: rest) w) (started ["enrich"] { w with now := enriching })
      fun between => started ("publish" :: rest) { between with now := publishing } := by
  have hearlier := (found_at hwork enriching).trans hfound
  obtain ⟨result, more, w', t, hfiles, hlong, hshort⟩ := sideBySide_enrich s w { w with now := enriching }
    (FileSystem.corresponds_refl (fun _ => rfl) w.files)
  have hwhole := run_perform_run (s := (Task.run table?).adjust s) htable table? w
  have hstep : Id.run (((enrich ((Task.run table?).adjust s) : Session (StateM World) Unit).run.run enrichHeading).run w) =
    ((result, enrichHeading ++ more), w') := hlong enrichHeading
  rw [hstep] at hwhole
  have hfirst : started ["enrich"] { w with now := enriching } = (ending more result, t) := by
    have hrun := hshort ""
    rw [String.empty_append] at hrun
    exact started_of_performed rfl hearlier hrun
  rw [hfirst]
  cases result with
  | error trouble =>
    rw [started_of_performed parsed hfound hwhole]
    exact inTurn_stopped hfiles
  | ok u =>
    have hreaches : w.Reaches { t with now := publishing } [s.paths.dataset, s.paths.manifest] := by
      have hwritten := transform_reaches s.paths.raw s.paths.dataset s.paths.manifest { w with now := enriching }
      rw [← state_of_enrich s "", hshort] at hwritten
      exact ⟨hwritten.files, hwritten.environment⟩
    have hlater := (found_reloaded (hreaches.reloads hwork (by simp [hdataset, hmanifest]))).trans hfound
    obtain ⟨result, more', w'', t', hfiles', hlong, hshort⟩ :=
      sideBySide_publish ((Task.run table?).adjust s) w' { t with now := publishing } hfiles
    dsimp only at hwhole
    rw [hlong] at hwhole
    rw [started_of_performed parsed hfound hwhole]
    refine inTurn_finished ?_ hfiles'
    have hrun := hshort ""
    rw [String.empty_append] at hrun
    exact started_of_performed (parse_publish rest table? parsed) hlater hrun

/-- A full run leaves what enriching and then publishing leave, or begins with nothing if there is no table. -/
theorem run_enriches_and_publishes (rest : List String) (table? : Option String)
    (parsed : parse ("run" :: rest) = .perform (.run table?)) (w : World) :
    (∀ s, found w = .ok s → Settings.filled? (table?.or s.catalog.table) = none →
      started ("run" :: rest) w = (⟨1, "", noTable.report⟩, w) ∧
        started ("publish" :: rest) w = (⟨1, "", noTable.report⟩, w)) ∧
    ∀ enriching publishing : Timestamp, w.files.AtWork →
      (∀ s, found w = .ok s → (Settings.filled? (table?.or s.catalog.table)).isSome ∧
        w.files.Apart s.paths.dataset ∧ w.files.Apart s.paths.manifest) →
      InTurn (headingOf (found w)) (started ("run" :: rest) w) (started ["enrich"] { w with now := enriching })
        fun between => started ("publish" :: rest) { between with now := publishing } := by
  constructor
  · intro s hfound hnone
    obtain ⟨hrun, -⟩ := run_perform_of_noTable (s := (Task.run table?).adjust s) hnone table? none w
    obtain ⟨-, hpublish⟩ := run_perform_of_noTable (s := (Task.publish none table?).adjust s) hnone table? none w
    exact ⟨started_of_performed parsed hfound hrun,
      started_of_performed (parse_publish rest table? parsed) hfound hpublish⟩
  · intro enriching publishing hwork hready
    cases hfound : found w with
    | error trouble =>
      have hearlier := (found_at hwork enriching).trans hfound
      have hfirst : started ["enrich"] { w with now := enriching } = _ := started_of_trouble rfl hwork hearlier
      rw [started_of_trouble parsed hwork hfound, hfirst]
      exact .stopped (show (1 : UInt32) ≠ 0 by decide) rfl String.empty_append.symm rfl
        (FileSystem.corresponds_refl UpToTimes.same w.files)
    | ok s =>
      obtain ⟨htable, hdataset, hmanifest⟩ := hready s hfound
      exact inTurn_of_found parsed hfound hwork htable hdataset hmanifest enriching publishing

/-- The day after that of the world with one row. -/
def dayAfter : Timestamp :=
  { oneRow.now with date := { oneRow.now.date with day := 7, day_range := by decide } }

theorem apart_oneRow : ∀ path ∈ [oneRowSettings.paths.dataset, oneRowSettings.paths.manifest], oneRow.files.Apart path := by
  intro path hpath
  constructor
  · revert path
    decide +kernel
  · revert path
    decide +kernel
  · intro place hplace
    obtain rfl := List.prefix_nil.1 hplace
    revert path
    decide +kernel

/-- With a table from the file of variables a full run publishes the row's card; a blank one on the command line stands
in front of it. -/
theorem run_enriches_and_publishes_one_row :
    started ["run", "--table", " "] oneRow = (⟨1, "", noTable.report⟩, oneRow) ∧
      (started ["run"] oneRow).1.code = 0 ∧
      InTurn enrichHeading (started ["run"] oneRow) (started ["enrich"] { oneRow with now := dayAfter })
        fun between => started ["publish"] { between with now := dayAfter } := by
  have hblank : parse ["run", "--table", " "] = .perform (.run (some " ")) := by decide +kernel
  have hplain : parse ["run"] = .perform (.run none) := by decide +kernel
  obtain ⟨printed, w', hrun⟩ := run_succeeds_oneRow
  have hran : started ["run"] oneRow = (⟨0, printed, ""⟩, w') :=
    run_of_succeeds ["run"] (.run none) oneRow w' printed oneRowSettings hplain found_oneRow hrun
  obtain ⟨hnone, -⟩ := run_enriches_and_publishes ["--table", " "] (some " ") hblank oneRow
  obtain ⟨-, hturn⟩ := run_enriches_and_publishes [] none hplain oneRow
  have hnoTable : Settings.filled? ((some " ").or oneRowSettings.catalog.table) = none := by decide +kernel
  refine ⟨(hnone oneRowSettings found_oneRow hnoTable).1, by rw [hran], ?_⟩
  have hinTurn := hturn dayAfter dayAfter (FileSystem.atWork_of_root rfl) fun s hs => by
    obtain rfl := Except.ok.inj (found_oneRow.symm.trans hs)
    exact ⟨by decide +kernel, apart_oneRow _ (by simp), apart_oneRow _ (by simp)⟩
  rw [found_oneRow] at hinTurn
  exact hinTurn

/-- The dataset is to be in a directory that has the name of the file of settings. -/
def overshadowed : World where
  files := {
    entries := [
      (["data"], .directory),
      (["data", "cards.raw.json"], .file "\x7b\"names\": [], \"data\": []\x7d".toUTF8),
      ([".env"], .file "CATALOG_TABLE=cards".toUTF8)]
    workingDirectory := [] }
  tables := []
  environment := [("CATALOG_DATASET_PATH", "catalog.toml/cards.json")]
  images := fun _ => .failed
  requests := []
  now := oneRow.now
  pauses := []

def overshadowedSettings : Settings :=
  { oneRowSettings with paths := { oneRowSettings.paths with dataset := "catalog.toml/cards.json" } }

def overshadowedEnriched : World :=
  (Id.run (((perform overshadowedSettings (.enrich none none none) :
    Session (StateM World) Unit).run.run "").run overshadowed)).2

theorem found_overshadowed : found overshadowed = .ok overshadowedSettings := by
  have hread : overshadowed.files.read
      (Path.join ("/" ++ "/".intercalate overshadowed.files.workingDirectory) ".env") =
      .ok "CATALOG_TABLE=cards".toUTF8 := rfl
  have hadded : added overshadowed = [("CATALOG_TABLE", "cards")] := by
    rw [added_of_read overshadowed _ hread]
    decide +kernel
  apply eq_ok_of_toOption
  rw [found, hadded]
  decide +kernel

theorem found_overshadowedEnriched : (found overshadowedEnriched).toOption = none := by
  have hread : overshadowedEnriched.files.read
      (Path.join ("/" ++ "/".intercalate overshadowedEnriched.files.workingDirectory) ".env") =
      .ok "CATALOG_TABLE=cards".toUTF8 := eq_ok_of_toOption (by decide +kernel)
  have hadded : added overshadowedEnriched = [("CATALOG_TABLE", "cards")] := by
    rw [added_of_read overshadowedEnriched _ hread]
    decide +kernel
  rw [found, hadded]
  decide +kernel

theorem ran_overshadowed : (Id.run (((perform overshadowedSettings (.run none) :
    Session (StateM World) Unit).run.run "").run overshadowed)).1.1.toOption.isSome := by decide +kernel

theorem enriched_overshadowed : (Id.run (((perform overshadowedSettings (.enrich none none none) :
    Session (StateM World) Unit).run.run "").run overshadowed)).1.1.toOption.isSome := by decide +kernel

theorem published_overshadowed : (started ["publish"] overshadowedEnriched).1.code = 1 := by
  have hwork : overshadowedEnriched.files.AtWork := FileSystem.atWork_of_root (by decide +kernel)
  cases hfound : found overshadowedEnriched with
  | ok s =>
    have hnone := found_overshadowedEnriched
    rw [hfound] at hnone
    cases hnone
  | error trouble =>
    rw [started_of_trouble (parse_publish [] none rfl) hwork hfound]
    rfl

/-- Where the dataset lies in a directory that has the name of the file of settings, a full run goes through, but what
is started after enriching takes the directory for its settings. -/
theorem run_differs_through_settings : ∃ s, found overshadowed = .ok s ∧
    (Settings.filled? s.catalog.table).isSome ∧
    (∀ path ∈ [s.paths.dataset, s.paths.manifest], overshadowed.files.named path ∉ [[Settings.filePath], [".env"]]) ∧
    (started ["run"] overshadowed).1.code = 0 ∧
    ¬ InTurn enrichHeading (started ["run"] overshadowed) (started ["enrich"] overshadowed)
      (started ["publish"]) := by
  have hplain : parse ["run"] = .perform (.run none) := by decide +kernel
  obtain ⟨⟨⟩, printed, hrun⟩ := exists_succeeds_of_isSome ran_overshadowed
  obtain ⟨⟨⟩, printed', henrich⟩ := exists_succeeds_of_isSome enriched_overshadowed
  have hran : started ["run"] overshadowed = (⟨0, printed, ""⟩, _) :=
    run_of_succeeds ["run"] (.run none) overshadowed _ printed _ hplain found_overshadowed hrun
  have henriched : started ["enrich"] overshadowed = (⟨0, printed', ""⟩, overshadowedEnriched) :=
    run_of_succeeds ["enrich"] (.enrich none none none) overshadowed _ printed' _ rfl found_overshadowed henrich
  refine ⟨overshadowedSettings, found_overshadowed, by decide +kernel, by decide +kernel, by rw [hran], ?_⟩
  rw [hran, henriched]
  intro hturn
  cases hturn with
  | stopped failed => exact failed rfl
  | finished succeeded code =>
    dsimp only at code
    rw [published_overshadowed] at code
    exact absurd code (by decide)

end CommandLine.Catalog

end CardIndex
