import CardIndex.Proofs.CommandLine.Flags
import CardIndex.Proofs.Settings.Variables
import CardIndex.Proofs.World
import Mathlib.Data.List.Basic

namespace CardIndex

open Attempt

/-- The document that settings are read from, which is empty if there is no file. -/
def Settings.document? (w : World) : Option (List (String × Toml.Value)) :=
  if w.files.holds filePath then
    ((w.files.read filePath).bind FileSystem.decode).toOption.bind Toml.Parser.document?
  else some []

theorem Settings.ofFile_succeeds {w : World} {members : List (String × Toml.Value)} {file : Settings}
    (hdocument : document? w = some members) (hvalid : ofMembers? members = some file) :
    (ofFile filePath : Attempt (StateM World) Settings).Succeeds w file w := by
  unfold ofFile
  unfold document? at hdocument
  rw [succeeds_bind]
  refine ⟨w.files.holds filePath, w, (succeeds_lift _ _ _ _).2 (World.run_holds _ _), ?_⟩
  split at hdocument
  · rename_i hholds
    rw [if_pos hholds]
    obtain ⟨text, hcontent, hparsed⟩ := Option.bind_eq_some_iff.1 hdocument
    have htext : ofText? text = some file := by rw [ofText?, hparsed]; exact hvalid
    rw [succeeds_bind]
    refine ⟨.ok text, w, ?_, ?_⟩
    · rw [succeeds_lift, World.run_readText, eq_ok_of_toOption hcontent]
    · dsimp only
      rw [htext]
      exact (succeeds_pure _ _ _ _).2 ⟨rfl, rfl⟩
  · rename_i hmissing
    rw [if_neg hmissing]
    obtain rfl := Option.some.inj hdocument
    obtain rfl : standard = file := Option.some.inj hvalid
    exact (succeeds_pure _ _ _ _).2 ⟨rfl, rfl⟩

theorem Settings.load_succeeds {w : World} {members : List (String × Toml.Value)} {file : Settings}
    (hdocument : document? w = some members) (hvalid : ofMembers? members = some file) (env : String → Option String) :
    (load env : Attempt (StateM World) Settings).Succeeds w (file.override env) w := by
  unfold load
  rw [succeeds_bind]
  exact ⟨file, w, ofFile_succeeds hdocument hvalid, (succeeds_pure _ _ _ _).2 ⟨rfl, rfl⟩⟩

namespace CommandLine.Catalog

open Session Dotenv

/-- What a program finds are the settings of the file under the variables that it sees. -/
theorem found_of_layers {w : World} {lines : List Line} {members : List (String × Toml.Value)} {file : Settings}
    (hlines : lines? w = some lines) (hdocument : Settings.document? w = some members)
    (hvalid : Settings.ofMembers? members = some file) :
    found w = .ok (file.override (scope (w.environment.lookup ·) lines)) := by
  let values := Settings.variableNames.map fun name => (name, visible w (added w) name)
  let env (name : String) := (values.lookup name).join
  have hseen (name : String) : Id.run ((do pure (name, ← lookup (added w) name) :
      StateM World (String × Option String)).run w) = ((name, visible w (added w) name), w) := rfl
  have hvalues := run_mapM hseen Settings.variableNames
  have hlookup (v : Setting) : env v.variableName = scope (w.environment.lookup ·) lines v.variableName := by
    rw [← visible_added hlines]
    exact congrArg Option.join (List.lookup_graph (visible w (added w)) v.mem_variableNames)
  have hload := Settings.load_succeeds hdocument hvalid env
  have hsettings : Succeeds (settings (added w)) "" w (file.override env) "" w := by
    unfold settings
    rw [Session.succeeds_bind]
    refine ⟨values, "", w, (Session.succeeds_lift _ _ _ _ _ _).2 ⟨hvalues, rfl⟩, ?_⟩
    exact (succeeds_attempt _ _ _ _ _ _ _).2 ⟨hload, rfl⟩
  rw [← Settings.override_congr file hlookup]
  exact congrArg (fun result => result.1.1) hsettings

/-- Each setting is what its own flag says, else what its own variable says, else what the file says, else its default.
A variable that the program was started with hides that of the lines, and none of them changes what it does not stand
for. The program does its task with these settings; the table is asked for without the white space around it. -/
theorem settings_layered (w : World) (lines : List Line) (members : List (String × Toml.Value)) (file : Settings)
    (hlines : lines? w = some lines) (hdocument : Settings.document? w = some members)
    (hvalid : Settings.ofMembers? members = some file) :
    let env := scope (w.environment.lookup ·) lines
    Seen (w.environment.lookup ·) lines env ∧ ∃ s, found w = .ok s ∧ s.images = file.images ∧
      (∀ v : Setting, Settings.Resolves (env v.variableName) (v.said? members) (v.value .standard) (v.value s)) ∧
      (∀ (v : Setting) (environment : List (String × String)),
        (∀ name, name ≠ v.variableName → scope (environment.lookup ·) lines name = env name) →
        ∃ s', found { w with environment } = .ok s' ∧ s'.images = s.images ∧ ∀ u, u ≠ v → u.value s' = u.value s) ∧
      s.override env = s ∧
      ∀ arguments task, parse arguments = .perform task →
        (∃ command rest given, arguments = command :: rest ∧ Spelled (IsFlag command) rest given ∧
          ∀ v : Setting, v.value (task.adjust s) =
            ((flagName? command v).bind fun name => given.lookup name).or (v.value s)) ∧
        (task.adjust s).images = s.images ∧
        (∀ table, (task.adjust s).requireTable = .ok table ↔
          ∃ whole, (task.adjust s).catalog.table = some whole ∧ Core whole table) ∧
        ((task.adjust s).requireTable = .error .noTable ↔
          ∀ whole, (task.adjust s).catalog.table = some whole → ∀ c ∈ whole.toList, Text.isBlank c) ∧
        Id.run ((program arguments : StateM World Outcome).run w) =
          Id.run ((outcome (perform (task.adjust s) task) : StateM World Outcome).run w) := by
  intro env
  have hfound := found_of_layers hlines hdocument hvalid
  refine ⟨seen_scope _ _, _, hfound, rfl, Settings.resolves_override hvalid env, ?_, ?_, ?_⟩
  · intro v environment hothers
    have hsame : lines? { w with environment } = lines? w := lines?_congr rfl
    refine ⟨_, found_of_layers (hsame.trans hlines) hdocument hvalid, rfl, fun u hne => ?_⟩
    have hname : u.variableName ≠ v.variableName := fun h => hne (Setting.variableName_injective h)
    rw [Settings.value_override, Settings.value_override]
    exact congrArg (fun value => (Settings.filled? value).or _) (hothers _ hname)
  · exact Settings.override_override file env
  · intro arguments task hparse
    obtain ⟨command, rest, given, harguments, hspelled, hflags⟩ := spelled_of_parse hparse
    refine ⟨⟨command, rest, given, harguments, hspelled, fun v => ?_⟩, images_adjust task _,
      (task.adjust _).requireTable_ok_iff, (task.adjust _).requireTable_error_iff, ?_⟩
    · rw [value_adjust, hflags]
    · exact run_program arguments task w _ hparse hfound

def layeredVariables : String :=
  "CATALOG_TABLE=' cards '\nCATALOG_REGION=south\nexport CATALOG_STORE_DIR=$HOME/store\nCATALOG_RAW_PATH=\n"

def layeredDocument : String :=
  "[catalog]\ntable = 'old'\nregion = 'north'\nbackend = 'memory'\n[paths]\nraw = 'raw.json'\n"

/-- A world with a file of settings and a file of variables, one of which a blank variable hides, one of which is blank
and one of which names another. -/
def layered : World :=
  { World.gallery [(["catalog.toml"], .file layeredDocument.toUTF8), ([".env"], .file layeredVariables.toUTF8)] [] with
    environment := [("HOME", "h"), ("CATALOG_REGION", " ")] }

theorem settings_layered_of_blank_variables : ∃ s, found layered = .ok s ∧
    Setting.table.value s = some "cards" ∧ Setting.region.value s = some "north" ∧
    Setting.backend.value s = some "memory" ∧ Setting.storeDir.value s = some "h/store" ∧
    Setting.raw.value s = some "raw.json" ∧ Setting.dataset.value s = some "data/cards.enriched.json" ∧
    parse ["run", "--table", " other "] = .perform (.run (some " other ")) ∧
    ((Task.run (some " other ")).adjust s).requireTable = .ok "other" := by
  have hread : layered.files.read (Path.join ("/" ++ "/".intercalate layered.files.workingDirectory) ".env") =
      .ok layeredVariables.toUTF8 := rfl
  have hall : lines? layered = parsed? layeredVariables.toUTF8 := by
    rw [lines?, file?_of_read layered hread]
  have hvalues : ((parsed? layeredVariables.toUTF8).bind fun lines => (Settings.document? layered).bind fun members =>
      (Settings.ofMembers? members).map fun _ =>
        [Setting.table, .region, .backend, .storeDir, .raw, .dataset].map fun v =>
        ((Settings.filled? (scope (layered.environment.lookup ·) lines v.variableName)).or
          ((v.said? members).bind Settings.string?)).or (v.value .standard)) =
      some [some "cards", some "north", some "memory", some "h/store", some "raw.json",
        some "data/cards.enriched.json"] := by decide +kernel
  obtain ⟨lines, hlines, hvalues⟩ := Option.bind_eq_some_iff.1 hvalues
  obtain ⟨members, hdocument, hvalues⟩ := Option.bind_eq_some_iff.1 hvalues
  obtain ⟨file, hvalid, hvalues⟩ := Option.map_eq_some_iff.1 hvalues
  simp only [List.map_cons, List.map_nil, List.cons.injEq] at hvalues
  obtain ⟨htable, hregion, hbackend, hstoreDir, hraw, hdataset, -⟩ := hvalues
  obtain ⟨-, s, hfound, -, hresolves, -, -, hflags⟩ :=
    settings_layered layered lines members file (hall.trans hlines) hdocument hvalid
  have hparse : parse ["run", "--table", " other "] = .perform (.run (some " other ")) := by decide +kernel
  have hother : " other ".trimBlank = "other" := by decide +kernel
  have hcore : Core " other " "other" := hother ▸ Core.of_trimBlank (hother ▸ by decide)
  have hnamed := ((hflags _ _ hparse).2.2.1 "other").2 ⟨" other ", rfl, hcore⟩
  exact ⟨s, hfound, (hresolves _).eq.trans htable, (hresolves _).eq.trans hregion, (hresolves _).eq.trans hbackend,
    (hresolves _).eq.trans hstoreDir, (hresolves _).eq.trans hraw, (hresolves _).eq.trans hdataset, hparse, hnamed⟩

end CommandLine.Catalog

end CardIndex
