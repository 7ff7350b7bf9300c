import CardIndex.CommandLine.Catalog
import CardIndex.Proofs.Settings.Layers

namespace CardIndex.CommandLine

/-- Options of known names as they are written, with the value behind the name or joined to it. None comes twice. -/
inductive Spelled (known : String → Prop) : List String → Given → Prop
  | nil : Spelled known [] []
  | stop : Spelled known ["--"] []
  | apart {name value rest given} (isKnown : known name) (once : name ∉ given.map Prod.fst)
      (others : Spelled known rest given) : Spelled known (("--" ++ name) :: value :: rest) ((name, value) :: given)
  | joined {name value rest given} (isKnown : known name) (once : name ∉ given.map Prod.fst)
      (others : Spelled known rest given) :
      Spelled known (("--" ++ name ++ "=" ++ value) :: rest) ((name, value) :: given)

theorem Spelled.mono {known known' : String → Prop} (hknown : ∀ name, known name → known' name)
    {arguments : List String} {given : Given} (h : Spelled known arguments given) : Spelled known' arguments given := by
  induction h with
  | nil => exact .nil
  | stop => exact .stop
  | apart isKnown once others ih => exact .apart (hknown _ isKnown) once ih
  | joined isKnown once others ih => exact .joined (hknown _ isKnown) once ih

theorem of_splitOption_none {argument name : String} (h : splitOption argument = (name, none)) : name = argument := by
  unfold splitOption at h
  dsimp only at h
  split at h
  · exact (Prod.mk.inj h).1.symm
  · cases h

theorem of_splitOption_some {argument name value : String} (h : splitOption argument = (name, some value)) :
    argument = name ++ "=" ++ value := by
  unfold splitOption at h
  dsimp only at h
  split at h
  · cases h
  · rename_i c rest hrest
    obtain ⟨rfl, hvalue⟩ := Prod.mk.inj h
    obtain rfl := Option.some.inj hvalue
    have hsplit := List.takeWhile_append_dropWhile (p := (· ≠ '=')) (l := argument.toList)
    have hbehind : argument.toList.dropWhile (· ≠ '=') = c :: rest :=
      List.drop_left.symm.trans ((congrArg (List.drop _) hsplit).trans hrest)
    have hmark := List.head?_dropWhile_not (· ≠ '=') argument.toList
    rw [hbehind] at hmark
    obtain rfl : c = '=' := by simpa using hmark
    rw [hbehind] at hsplit
    rw [← String.toList_inj]
    simpa using hsplit.symm

theorem of_accept {rule : OptionRule} {value : String} {given given' : Given}
    (h : accept rule value given = some given') :
    given.lookup rule.name = none ∧ given' = given ++ [(rule.name, value)] := by
  unfold accept at h
  split at h
  · cases h
  · rename_i hnew
    rw [Bool.or_eq_true, not_or, Option.not_isSome_iff_eq_none] at hnew
    exact ⟨hnew.2, (Option.some.inj h).symm⟩

/-- What is behind an option has other names. -/
theorem fresh_of_accept {rule : OptionRule} {value : String} {given given' more : Given}
    (haccept : accept rule value given = some given') (hbehind : ∀ p ∈ more, given'.lookup p.1 = none) :
    given' ++ more = given ++ (rule.name, value) :: more ∧ rule.name ∉ more.map Prod.fst ∧
      ∀ p ∈ (rule.name, value) :: more, given.lookup p.1 = none := by
  obtain ⟨hnew, rfl⟩ := of_accept haccept
  simp only [List.lookup_append, Option.or_eq_none_iff, List.lookup_cons, List.lookup_nil] at hbehind
  refine ⟨List.append_assoc _ _ _, ?_, ?_⟩
  · intro hmem
    obtain ⟨p, hp, hname⟩ := List.mem_map.1 hmem
    have hlast := (hbehind p hp).2
    rw [hname, beq_self_eq_true] at hlast
    cases hlast
  · rw [List.forall_mem_cons]
    exact ⟨hnew, fun p hp => (hbehind p hp).1⟩

theorem known_of_find? {rules : List OptionRule} {rule : OptionRule} {name : String}
    (h : rules.find? (fun rule => "--" ++ rule.name = name) = some rule) :
    "--" ++ rule.name = name ∧ ∃ known ∈ rules, known.name = rule.name := by
  have hname := List.find?_some h
  exact ⟨of_decide_eq_true hname, rule, List.mem_of_find?_eq_some h, rfl⟩

/-- What was read from arguments is spelled in them. -/
theorem spelled_of_options {rules : List OptionRule} {given g : Given} {arguments : List String}
    (h : options rules given arguments = .perform g) :
    ∃ more, g = given ++ more ∧ Spelled (fun name => ∃ rule ∈ rules, rule.name = name) arguments more ∧
      ∀ p ∈ more, given.lookup p.1 = none := by
  have hnone (given : Given) : ∀ p ∈ ([] : Given), given.lookup p.1 = none := fun _ hp => by cases hp
  fun_induction options rules given arguments with
  | case1 given => exact ⟨[], (Demand.perform.inj h).symm.trans (List.append_nil _).symm, .nil, hnone given⟩
  | case2 given => exact ⟨[], (Demand.perform.inj h).symm.trans (List.append_nil _).symm, .stop, hnone given⟩
  | case5 given argument hhelp name rule value rest hrule given' haccept hlast hsplit ih =>
    obtain ⟨more, rfl, hspelled, hbehind⟩ := ih h
    obtain ⟨hmore, honce, hfresh⟩ := fresh_of_accept haccept hbehind
    obtain ⟨rfl, hknown⟩ := known_of_find? hrule
    obtain rfl := of_splitOption_some hsplit
    exact ⟨(rule.name, value) :: more, hmore, .joined hknown honce hspelled, hfresh⟩
  | case7 given argument hhelp name rule value rest hrule hvalue given' haccept hlast hsplit ih =>
    obtain ⟨more, rfl, hspelled, hbehind⟩ := ih h
    obtain ⟨hmore, honce, hfresh⟩ := fresh_of_accept haccept hbehind
    obtain ⟨rfl, hknown⟩ := known_of_find? hrule
    obtain rfl := of_splitOption_none hsplit
    exact ⟨(rule.name, value) :: more, hmore, .apart hknown honce hspelled, hfresh⟩
  | _ => cases h

namespace Catalog

/-- What a task's flag says about a setting. -/
def Task.flag? : Task → Setting → Option String
  | .enrich input _ _, .raw => input
  | .enrich _ output _, .dataset => output
  | .enrich _ _ manifest, .manifest => manifest
  | .publish dataset _, .dataset => dataset
  | .publish _ table, .table => table
  | .run table, .table => table
  | .fetchImages manifest _, .manifest => manifest
  | .fetchImages _ assetRoot, .assetRoot => assetRoot
  | _, _ => none

/-- The name of the flag that a command has for a setting. -/
def flagName? : String → Setting → Option String
  | "enrich", .raw => some "input"
  | "enrich", .dataset => some "output"
  | "enrich", .manifest => some "manifest"
  | "publish", .dataset => some "dataset"
  | "publish", .table => some "table"
  | "run", .table => some "table"
  | "fetch-images", .manifest => some "manifest"
  | "fetch-images", .assetRoot => some "asset-root"
  | _, _ => none

theorem Demand.of_map_perform {α β : Type} {f : α → β} {demand : Demand α} {b : β} (h : demand.map f = .perform b) :
    ∃ a, demand = .perform a ∧ f a = b := by
  cases demand with
  | perform a => exact ⟨a, rfl, Demand.perform.inj h⟩
  | _ => cases h

/-- A command has no options but its flags. -/
def IsFlag (command name : String) : Prop := ∃ v, flagName? command v = some name

/-- A command reads its options into its task. -/
theorem spelled_of_map {rules : List OptionRule} {rest : List String} {f : Given → Task} {command : String} {task : Task}
    (hmap : (options rules [] rest).map f = .perform task) (hrules : ∀ rule ∈ rules, IsFlag command rule.name)
    (hflags : ∀ g v, (f g).flag? v = (flagName? command v).bind fun name => g.lookup name) :
    ∃ given, Spelled (IsFlag command) rest given ∧
      ∀ v, task.flag? v = (flagName? command v).bind fun name => given.lookup name := by
  obtain ⟨given, hoptions, rfl⟩ := Demand.of_map_perform hmap
  obtain ⟨_, rfl, hspelled, -⟩ := spelled_of_options hoptions
  refine ⟨_, hspelled.mono ?_, hflags _⟩
  rintro name ⟨rule, hrule, rfl⟩
  exact hrules rule hrule

/-- A task's flags are those that its arguments spell. -/
theorem spelled_of_parse {arguments : List String} {task : Task} (h : parse arguments = .perform task) :
    ∃ command rest given, arguments = command :: rest ∧ Spelled (IsFlag command) rest given ∧
      ∀ v, task.flag? v = (flagName? command v).bind fun name => given.lookup name := by
  unfold parse at h
  split at h
  · cases h
  · split at h
    · refine ⟨_, _, exists_and_left.2 ⟨rfl, spelled_of_map h ?_ fun g v => by cases v <;> rfl⟩⟩
      rw [enrichRules, List.forall_mem_cons, List.forall_mem_cons, List.forall_mem_singleton]
      exact ⟨⟨.raw, rfl⟩, ⟨.dataset, rfl⟩, .manifest, rfl⟩
    · refine ⟨_, _, exists_and_left.2 ⟨rfl, spelled_of_map h ?_ fun g v => by cases v <;> rfl⟩⟩
      rw [publishRules, List.forall_mem_cons, List.forall_mem_singleton]
      exact ⟨⟨.dataset, rfl⟩, .table, rfl⟩
    · refine ⟨_, _, exists_and_left.2 ⟨rfl, spelled_of_map h ?_ fun g v => by cases v <;> rfl⟩⟩
      rw [runRules, List.forall_mem_singleton]
      exact ⟨.table, rfl⟩
    · refine ⟨_, _, exists_and_left.2 ⟨rfl, spelled_of_map h ?_ fun g v => by cases v <;> rfl⟩⟩
      rw [fetchRules, List.forall_mem_cons, List.forall_mem_singleton]
      exact ⟨⟨.manifest, rfl⟩, .assetRoot, rfl⟩
    · unfold helpOn at h
      split at h
      · cases h
      · split at h
        · cases h
        · cases h
      · cases h
    · split at h
      · cases h
      · split at h
        · cases h
        · cases h

/-- A flag that is given replaces the value of its setting, and nothing else. -/
theorem value_adjust (task : Task) (s : Settings) (v : Setting) :
    v.value (task.adjust s) = (task.flag? v).or (v.value s) := by
  cases task <;> cases v <;> simp [Task.adjust, Task.flag?, Setting.value]

theorem images_adjust (task : Task) (s : Settings) : (task.adjust s).images = s.images := by
  cases task <;> rfl

end Catalog

end CardIndex.CommandLine
