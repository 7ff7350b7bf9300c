import CardIndex.Proofs.Text.Trimming
import CardIndex.Settings.File

namespace CardIndex

open Toml (Value)

/-- What is left of a text without the white space at both ends, if anything is. -/
structure Core (whole core : String) : Prop where
  filled : core ≠ ""
  trimmed : Text.Trimmed core.toList
  around : ∃ front back, whole.toList = front ++ core.toList ++ back ∧ (∀ c ∈ front, Text.isBlank c) ∧
    ∀ c ∈ back, Text.isBlank c

namespace Core

theorem trimBlank {whole core : String} (h : Core whole core) : whole.trimBlank = core := by
  obtain ⟨front, back, hwhole, hfront, hback⟩ := h.around
  rw [String.trimBlank, hwhole, List.append_assoc, Text.trim_blank_append _ hfront, Text.trim_append_blank _ hback,
    h.trimmed.trim, String.ofList_toList]

theorem of_trimBlank {whole : String} (h : whole.trimBlank ≠ "") : Core whole whole.trimBlank := by
  have hchars : whole.trimBlank.toList = Text.trim whole.toList := String.toList_ofList
  refine ⟨h, hchars ▸ Text.trimmed_trim _, ?_⟩
  obtain ⟨front, hfront, hblank⟩ := Text.trimStart_append whole.toList
  obtain ⟨back, hback, hblank'⟩ := Text.trimEnd_append (Text.trimStart whole.toList)
  refine ⟨front, back, ?_, hblank, hblank'⟩
  rw [hchars, Text.trim, List.append_assoc, ← hback, ← hfront]

end Core

theorem Settings.filled?_eq_some_iff (value : Option String) (core : String) :
    filled? value = some core ↔ ∃ whole, value = some whole ∧ Core whole core := by
  unfold filled?
  rw [Option.filter_eq_some_iff, Option.map_eq_some_iff]
  constructor
  · rintro ⟨⟨whole, rfl, rfl⟩, hne⟩
    exact ⟨whole, rfl, .of_trimBlank (of_decide_eq_true hne)⟩
  · rintro ⟨whole, rfl, hcore⟩
    exact ⟨⟨whole, rfl, hcore.trimBlank⟩, decide_eq_true hcore.filled⟩

theorem Settings.filled?_eq_none_iff (value : Option String) :
    filled? value = none ↔ ∀ whole, value = some whole → ∀ c ∈ whole.toList, Text.isBlank c := by
  constructor
  · rintro hnone whole rfl c hc
    have hempty : Text.trim whole.toList = [] := by
      by_contra hne
      have htrim : whole.trimBlank ≠ "" := fun h => hne (String.ofList_eq_empty_iff.1 h)
      have hsome := (filled?_eq_some_iff _ _).2 ⟨whole, rfl, .of_trimBlank htrim⟩
      rw [hnone] at hsome
      cases hsome
    obtain ⟨front, hfront, hblank⟩ := Text.trimStart_append whole.toList
    obtain ⟨back, hback, hblank'⟩ := Text.trimEnd_append (Text.trimStart whole.toList)
    rw [hfront, hback, ← Text.trim, hempty, List.nil_append] at hc
    exact (List.mem_append.1 hc).elim (hblank c) (hblank' c)
  · intro hblank
    by_contra hne
    obtain ⟨core, hcore⟩ := Option.ne_none_iff_exists'.1 hne
    obtain ⟨whole, rfl, hwhole⟩ := (filled?_eq_some_iff _ _).1 hcore
    have hempty : Text.trim (whole.toList ++ []) = Text.trim [] := Text.trim_blank_append [] (hblank whole rfl)
    rw [List.append_nil] at hempty
    apply hwhole.filled
    rw [← hwhole.trimBlank, String.trimBlank, hempty]
    rfl

/-- The settings that a variable may stand for. -/
inductive Setting
  | table
  | region
  | backend
  | storeDir
  | raw
  | dataset
  | manifest
  | assetRoot
deriving DecidableEq

namespace Setting

/-- The variable that stands for it. -/
def variableName : Setting → String
  | table => "CATALOG_TABLE"
  | region => "CATALOG_REGION"
  | backend => "CATALOG_STORE_BACKEND"
  | storeDir => "CATALOG_STORE_DIR"
  | raw => "CATALOG_RAW_PATH"
  | dataset => "CATALOG_DATASET_PATH"
  | manifest => "CATALOG_MANIFEST_PATH"
  | assetRoot => "CATALOG_ASSET_ROOT"

/-- The section of the file that it belongs to. -/
def sectionName : Setting → String
  | table => "catalog"
  | region => "catalog"
  | backend => "catalog"
  | storeDir => "catalog"
  | raw => "paths"
  | dataset => "paths"
  | manifest => "paths"
  | assetRoot => "paths"

/-- Its name in the section. -/
def key : Setting → String
  | table => "table"
  | region => "region"
  | backend => "backend"
  | storeDir => "store_dir"
  | raw => "raw"
  | dataset => "dataset"
  | manifest => "manifest"
  | assetRoot => "asset_root"

/-- Its place in a section that has no names. -/
def position : Setting → Nat
  | table => 0
  | region => 1
  | backend => 2
  | storeDir => 3
  | raw => 0
  | dataset => 1
  | manifest => 2
  | assetRoot => 3

/-- Its value; only the table may be without one. -/
def value (s : Settings) : Setting → Option String
  | table => s.catalog.table
  | region => s.catalog.region
  | backend => s.catalog.backend
  | storeDir => s.catalog.storeDir
  | raw => s.paths.raw
  | dataset => s.paths.dataset
  | manifest => s.paths.manifest
  | assetRoot => s.paths.assetRoot

/-- What a file of settings holds for it. -/
def said? (members : List (String × Value)) (v : Setting) : Option Value :=
  match members.lookup v.sectionName with
  | some (.table entries) => entries.lookup v.key
  | some (.array items) => items[v.position]?
  | _ => none

theorem mem_variableNames (v : Setting) : v.variableName ∈ Settings.variableNames := by
  cases v <;> decide

theorem variableName_injective {u v : Setting} (h : u.variableName = v.variableName) : u = v := by
  revert h
  cases u <;> cases v <;> decide

end Setting

namespace Settings

theorem ext_value {s s' : Settings} (hvalues : ∀ v : Setting, v.value s = v.value s') (himages : s.images = s'.images) :
    s = s' := by
  obtain ⟨⟨raw, dataset, manifest, assetRoot⟩, ⟨table, region, backend, storeDir⟩, images⟩ := s
  obtain ⟨⟨raw', dataset', manifest', assetRoot'⟩, ⟨table', region', backend', storeDir'⟩, images'⟩ := s'
  obtain rfl : images = images' := himages
  obtain rfl : table = table' := hvalues .table
  obtain rfl := Option.some.inj (hvalues .region)
  obtain rfl := Option.some.inj (hvalues .backend)
  obtain rfl := Option.some.inj (hvalues .storeDir)
  obtain rfl := Option.some.inj (hvalues .raw)
  obtain rfl := Option.some.inj (hvalues .dataset)
  obtain rfl := Option.some.inj (hvalues .manifest)
  obtain rfl := Option.some.inj (hvalues .assetRoot)
  rfl

/-- Each variable stands for one setting. -/
theorem value_override (s : Settings) (env : String → Option String) (v : Setting) :
    v.value (s.override env) = (filled? (env v.variableName)).or (v.value s) := by
  cases v with
  | table => rfl
  | region => exact Option.or_some.symm
  | backend => exact Option.or_some.symm
  | storeDir => exact Option.or_some.symm
  | raw => exact Option.or_some.symm
  | dataset => exact Option.or_some.symm
  | manifest => exact Option.or_some.symm
  | assetRoot => exact Option.or_some.symm

theorem override_congr (s : Settings) {env env' : String → Option String}
    (h : ∀ v : Setting, env v.variableName = env' v.variableName) : s.override env = s.override env' := by
  refine ext_value (fun v => ?_) rfl
  rw [value_override, value_override, h]

/-- What the variables say is said once and for all. -/
theorem override_override (s : Settings) (env : String → Option String) :
    (s.override env).override env = s.override env := by
  refine ext_value (fun v => ?_) rfl
  rw [value_override, value_override, ← Option.or_assoc, Option.or_self]

theorem lookup_zip {α : Type} {names : List String} (items : List α) {i : Nat} {name : String} (hdistinct : names.Nodup)
    (hname : names[i]? = some name) : (names.zip items).lookup name = items[i]? := by
  induction names generalizing items i with
  | nil => cases hname
  | cons first names ih =>
    obtain ⟨hfirst, hothers⟩ := List.nodup_cons.1 hdistinct
    cases items with
    | nil => simp
    | cons item items =>
      rw [List.zip_cons_cons, List.lookup_cons]
      cases i with
      | zero =>
        obtain rfl := Option.some.inj hname
        simp
      | succ i =>
        rw [List.getElem?_cons_succ] at hname
        have hne : name ≠ first := fun hsame => hfirst (hsame ▸ List.mem_of_getElem? hname)
        rw [beq_eq_false_iff_ne.2 hne]
        exact ih items hothers hname

theorem string?_eq_some_iff (v : Value) (text : String) : string? v = some text ↔ v = .string text := by
  cases v <;> simp [string?]

/-- Whether the settings of a section have names or places. -/
theorem lookup_section {names : List String} {members entries : List (String × Value)} {v : Setting}
    (h : section? names (members.lookup v.sectionName) = some entries) (hdistinct : names.Nodup)
    (hkey : names[v.position]? = some v.key) : entries.lookup v.key = v.said? members := by
  unfold Setting.said?
  cases hsection : members.lookup v.sectionName with
  | none =>
    rw [hsection] at h
    obtain rfl := Option.some.inj h
    rfl
  | some found =>
    rw [hsection] at h
    cases found with
    | table members =>
      obtain rfl := Option.some.inj h
      rfl
    | array items =>
      obtain rfl := Option.some.inj h
      exact lookup_zip items hdistinct hkey
    | date =>
      obtain rfl := Option.some.inj h
      rfl
    | _ => cases h

/-- What is seen of a setting that was read. -/
theorem see_given {α : Type} {members entries : List (String × Value)} {v : Setting} {value? : Value → Option α}
    {wrap : String → α} {see : α → Option String} {default a : α} (hread : ∀ w, value? w = (string? w).map wrap)
    (hsee : ∀ text, see (wrap text) = some text) (hentries : entries.lookup v.key = v.said? members)
    (h : given entries v.key value? default = some a) :
    (v.said? members = none ∧ see a = see default) ∨
      ∃ text, v.said? members = some (.string text) ∧ see a = some text := by
  unfold given at h
  rw [hentries] at h
  cases hentry : v.said? members with
  | none =>
    rw [hentry] at h
    obtain rfl := Option.some.inj h
    exact .inl ⟨rfl, rfl⟩
  | some w =>
    rw [hentry] at h
    obtain ⟨text, htext, rfl⟩ := Option.map_eq_some_iff.1 ((hread w).symm.trans h)
    obtain rfl := (string?_eq_some_iff w text).1 htext
    exact .inr ⟨text, rfl, hsee text⟩

/-- A document gives a setting its value or leaves it at the default. -/
theorem value_ofMembers? {members : List (String × Value)} {s : Settings} (h : ofMembers? members = some s)
    (v : Setting) :
    (v.said? members = none ∧ v.value s = v.value standard) ∨
      ∃ text, v.said? members = some (.string text) ∧ v.value s = some text := by
  unfold ofMembers? at h
  obtain ⟨paths, hpaths, h⟩ := Option.bind_eq_some_iff.1 h
  obtain ⟨catalog, hcatalog, h⟩ := Option.bind_eq_some_iff.1 h
  obtain ⟨images, himages, h⟩ := Option.bind_eq_some_iff.1 h
  obtain ⟨raw, hraw, h⟩ := Option.bind_eq_some_iff.1 h
  obtain ⟨dataset, hdataset, h⟩ := Option.bind_eq_some_iff.1 h
  obtain ⟨manifest, hmanifest, h⟩ := Option.bind_eq_some_iff.1 h
  obtain ⟨assetRoot, hassetRoot, h⟩ := Option.bind_eq_some_iff.1 h
  obtain ⟨table, htable, h⟩ := Option.bind_eq_some_iff.1 h
  obtain ⟨region, hregion, h⟩ := Option.bind_eq_some_iff.1 h
  obtain ⟨backend, hbackend, h⟩ := Option.bind_eq_some_iff.1 h
  obtain ⟨storeDir, hstoreDir, h⟩ := Option.bind_eq_some_iff.1 h
  obtain ⟨delay, hdelay, h⟩ := Option.bind_eq_some_iff.1 h
  obtain ⟨timeout, htimeout, h⟩ := Option.bind_eq_some_iff.1 h
  obtain rfl := Option.some.inj h
  have hplain (w : Value) : string? w = (string? w).map id := Option.map_id'.symm
  cases v with
  | table =>
    have hentries : catalog.lookup Setting.table.key = Setting.table.said? members :=
      lookup_section hcatalog (by decide) rfl
    exact @see_given _ _ _ .table _ some id _ _ (fun _ => rfl) (fun _ => rfl) hentries htable
  | region => exact see_given hplain (fun _ => rfl) (lookup_section hcatalog (by decide) rfl) hregion
  | backend => exact see_given hplain (fun _ => rfl) (lookup_section hcatalog (by decide) rfl) hbackend
  | storeDir => exact see_given hplain (fun _ => rfl) (lookup_section hcatalog (by decide) rfl) hstoreDir
  | raw => exact see_given hplain (fun _ => rfl) (lookup_section hpaths (by decide) rfl) hraw
  | dataset => exact see_given hplain (fun _ => rfl) (lookup_section hpaths (by decide) rfl) hdataset
  | manifest => exact see_given hplain (fun _ => rfl) (lookup_section hpaths (by decide) rfl) hmanifest
  | assetRoot => exact see_given hplain (fun _ => rfl) (lookup_section hpaths (by decide) rfl) hassetRoot

/-- A setting is what its variable says, without white space around it; else, if that is not set or blank, what the file
says; and else the default. -/
inductive Resolves (own? : Option String) (said? : Option Value) (default? : Option String) : Option String → Prop
  | set {whole text} (given : own? = some whole) (core : Core whole text) :
      Resolves own? said? default? (some text)
  | file {text} (blank : ∀ whole, own? = some whole → ∀ c ∈ whole.toList, Text.isBlank c)
      (given : said? = some (.string text)) : Resolves own? said? default? (some text)
  | default (blank : ∀ whole, own? = some whole → ∀ c ∈ whole.toList, Text.isBlank c) (silent : said? = none) :
      Resolves own? said? default? default?

theorem resolves_override {members : List (String × Value)} {file : Settings} (h : ofMembers? members = some file)
    (env : String → Option String) (v : Setting) :
    Resolves (env v.variableName) (v.said? members) (v.value standard) (v.value (file.override env)) := by
  rw [value_override]
  cases hvariable : filled? (env v.variableName) with
  | some text =>
    obtain ⟨whole, hset, hcore⟩ := (filled?_eq_some_iff _ _).1 hvariable
    exact .set hset hcore
  | none =>
    have hblank := (filled?_eq_none_iff _).1 hvariable
    rw [Option.none_or]
    rcases value_ofMembers? h v with ⟨hsilent, hvalue⟩ | ⟨text, hgiven, hvalue⟩
    · rw [hvalue]
      exact .default hblank hsilent
    · rw [hvalue]
      exact .file hblank hgiven

/-- No two values can be meant. -/
theorem Resolves.eq {own? default? : Option String} {said? : Option Value} {value : Option String}
    (h : Resolves own? said? default? value) : value = ((filled? own?).or (said?.bind string?)).or default? := by
  cases h with
  | set given core => rw [(filled?_eq_some_iff _ _).2 ⟨_, given, core⟩]; rfl
  | file blank given => rw [(filled?_eq_none_iff _).2 blank, given]; rfl
  | default blank silent => rw [(filled?_eq_none_iff _).2 blank, silent]; rfl

theorem requireTable_ok_iff (s : Settings) (table : String) :
    s.requireTable = .ok table ↔ ∃ whole, s.catalog.table = some whole ∧ Core whole table := by
  rw [← filled?_eq_some_iff]
  unfold requireTable
  cases filled? s.catalog.table with
  | none => simp
  | some other => simp

theorem requireTable_error_iff (s : Settings) : s.requireTable = .error .noTable ↔
    ∀ whole, s.catalog.table = some whole → ∀ c ∈ whole.toList, Text.isBlank c := by
  rw [← filled?_eq_none_iff]
  unfold requireTable
  cases filled? s.catalog.table with
  | none => simp
  | some table => simp

end Settings

end CardIndex
