import CardIndex.Proofs.Disk.Directory
import CardIndex.Proofs.Disk.Tree

namespace CardIndex.FileSystem

open CardIndex.Path

theorem foldlM_step_directory (fs : FileSystem) {names : List String} {p q : Place}
    (h : names.foldlM fs.step p = .ok q) (hdirectory : fs.find? q = some .directory) : fs.find? p = some .directory := by
  cases names with
  | nil =>
    obtain rfl := Except.ok.inj h
    exact hdirectory
  | cons name names =>
    rw [List.foldlM_cons] at h
    cases hstep : fs.step p name with
    | error e => rw [hstep] at h; cases h
    | ok r => exact ((fs.step_ok p r name).1 hstep).2

/-- A directory is walked to with the dots exactly if it is without them. -/
theorem foldlM_step_filter (fs : FileSystem) (names : List String) (p : Place) {q : Place}
    (hdirectory : fs.find? q = some .directory) :
    (names.filter (· ≠ ".")).foldlM fs.step p = .ok q ↔ names.foldlM fs.step p = .ok q := by
  induction names generalizing p with
  | nil => rfl
  | cons name names ih =>
    by_cases hdot : name = "."
    · subst hdot
      have hstay (hp : fs.find? p = some .directory) : fs.step p "." = .ok p := by
        rw [step_ok]
        exact ⟨(if_pos rfl).symm, hp⟩
      rw [List.filter_cons_of_neg (by simp), ih, List.foldlM_cons]
      constructor
      · intro h
        rw [hstay (fs.foldlM_step_directory h hdirectory)]
        exact h
      · intro h
        cases hstep : fs.step p "." with
        | error e => rw [hstep] at h; cases h
        | ok r =>
          obtain ⟨hr, -⟩ := (fs.step_ok p r ".").1 hstep
          rw [walk, if_pos rfl] at hr
          rw [hstep, hr] at h
          exact h
    · rw [List.filter_cons_of_pos (by simpa using hdot), List.foldlM_cons, List.foldlM_cons]
      cases fs.step p name with
      | error e => rfl
      | ok r => exact ih r

/-- What is walked to by all steps of a path but names at its end. -/
theorem foldlM_step_kept (fs : FileSystem) {front kept : List String} (p : Place) {q : Place}
    (hkept : kept = front.filter (· ≠ ".") ∨ ∃ rest, front = "." :: rest ∧ kept = "." :: rest.filter (· ≠ "."))
    (hdirectory : fs.find? q = some .directory) :
    kept.foldlM fs.step p = .ok q ↔ front.foldlM fs.step p = .ok q := by
  rcases hkept with rfl | ⟨rest, rfl, rfl⟩
  · exact fs.foldlM_step_filter front p hdirectory
  · rw [List.foldlM_cons, List.foldlM_cons]
    cases fs.step p "." with
    | error e => rfl
    | ok r => exact fs.foldlM_step_filter rest r hdirectory

theorem parent_of_parts {path : Path} {front names : List String} {name : String}
    (hparts : path.parts = front ++ (names ++ [name])) (hdots : "." ∉ names ++ [name]) :
    ∃ parent kept, path.parent? = some parent ∧ parent.parts = kept ++ names ∧ parent.isAbsolute = path.isAbsolute ∧
      (kept = front.filter (· ≠ ".") ∨ ∃ rest, front = "." :: rest ∧ kept = "." :: rest.filter (· ≠ ".")) := by
  obtain ⟨kept, hsteps, hkept⟩ := steps_of_parts hparts hdots
  have hne : path.steps ≠ [] := by simp [hsteps]
  have hparent := parent?_eq path
  rw [if_neg hne] at hparent
  obtain ⟨hnames, habsolute⟩ := of_parent?_eq_some hparent
  have hdropped : path.steps.dropLast = kept ++ names := by
    rw [hsteps, ← List.append_assoc, List.dropLast_concat]
  exact ⟨_, kept, hparent, hnames.trans hdropped, habsolute, hkept⟩

/-- A name in a directory to which the path above leads is found by the path. -/
theorem Leads.locate_of_parent {fs : FileSystem} {path parent : Path} {above : Place} (h : fs.Leads parent above)
    (hparent : path.parent? = some parent) {front : List String} {name : String} (hparts : path.parts = front ++ [name])
    (hname : IsName name) : fs.locate path = .ok (above ++ [name]) := by
  have hdots : "." ∉ [] ++ [name] := by simpa using hname.dot.symm
  obtain ⟨parent', kept, hparent', hkeptParts, habsolute, hkept⟩ := parent_of_parts (by simpa using hparts) hdots
  obtain rfl := Option.some.inj (hparent'.symm.trans hparent)
  have hne : path ≠ "" := ne_empty_of_parts hparts
  have hwalked := h.walked
  rw [hkeptParts, List.append_nil, start, habsolute] at hwalked
  rw [FileSystem.locate, if_neg hne, hparts, foldlM_step_concat]
  refine ⟨above, (fs.foldlM_step_kept _ hkept h.directory).1 hwalked, (fs.step_ok _ _ name).2 ⟨?_, h.directory⟩⟩
  rw [walk, if_neg hname.dot, if_neg hname.dots]

/-- A path goes to a directory that is there and from it by names to a place, and no file is at that place or on the
way there. -/
structure Clear (fs : FileSystem) (path : Path) (front names : List String) (base : Place) : Prop where
  parts : path.parts = front ++ names
  isName : ∀ name ∈ names, IsName name
  walked : front.foldlM fs.step (fs.start path) = .ok base
  directory : fs.find? base = some .directory
  noFile : ∀ way, way <+: names → ∀ content, fs.find? (base ++ way) ≠ some (.file content)

theorem foldlM_step_names (fs : FileSystem) (names : List String) (base : Place) (hnames : ∀ name ∈ names, IsName name)
    (hfree : ∀ way, way <+: names → ∀ content, fs.find? (base ++ way) ≠ some (.file content)) :
    names.foldlM fs.step base = .ok (base ++ names) ∨ names.foldlM fs.step base = .error .notFound := by
  induction names generalizing base with
  | nil => exact .inl (by rw [List.append_nil]; rfl)
  | cons name names ih =>
    rw [List.forall_mem_cons] at hnames
    rw [List.foldlM_cons]
    cases hfound : fs.find? base with
    | none =>
      right
      have hstep : fs.step base name = .error .notFound := by
        unfold step enter
        rw [hfound]
        rfl
      rw [hstep]
      rfl
    | some node =>
      cases node with
      | file content =>
        have hnone := hfree [] List.nil_prefix content
        rw [List.append_nil] at hnone
        exact absurd hfound hnone
      | directory =>
        have hstep : fs.step base name = .ok (base ++ [name]) := by
          rw [step_ok]
          refine ⟨?_, hfound⟩
          rw [walk, if_neg hnames.1.dot, if_neg hnames.1.dots]
        have hrest := ih (base ++ [name]) hnames.2 fun way hway content => by
          rw [List.append_assoc]
          exact hfree _ (List.cons_prefix_cons.2 ⟨rfl, hway⟩) content
        rw [hstep, List.append_cons base name names]
        exact hrest

theorem foldl_walk_names (names : List String) (base : Place) (hnames : ∀ name ∈ names, IsName name) :
    names.foldl walk base = base ++ names := by
  induction names generalizing base with
  | nil => exact (List.append_nil base).symm
  | cons name names ih =>
    rw [List.forall_mem_cons] at hnames
    rw [List.foldl_cons, walk, if_neg hnames.1.dot, if_neg hnames.1.dots, ih _ hnames.2, List.append_cons base name names]

/-- One directory is made, or is there. -/
theorem makes_one {fs : FileSystem} {path : Path} {place : Place} (hlocate : fs.locate path = .ok place)
    (hfree : ∀ content, fs.find? place ≠ some (.file content)) :
    ∃ result fs', change (·.createDirectory path) fs = (result, fs') ∧ result ≠ .error .notFound ∧
      excuse path result fs' = (.ok (), fs') ∧ fs'.locate path = .ok place ∧ fs'.find? place = some .directory ∧
      fs.Alters fs' fun p node => p = place ∧ node = .directory := by
  cases hfound : fs.find? place with
  | none =>
    have hplace : place ≠ [] := by
      apply @ne_nil_of_find? fs
      simp [hfound]
    have hcreate := made_of_none hlocate hfound
    have halters := fs.alters_put place .directory hplace (.inl hfound)
    refine ⟨.ok (), _, hcreate, by simp, rfl, halters.spares_root.locate path place hlocate, ?_, halters⟩
    rw [find?_put _ _ _ _ hplace, if_pos rfl]
  | some node =>
    cases node with
    | file content => exact absurd hfound (hfree content)
    | directory =>
      obtain ⟨hchange, hexcuse⟩ := excused_of_directory hlocate hfound
      exact ⟨_, fs, hchange, by simp, hexcuse, hlocate, hfound, .refl _ _⟩

namespace Clear

variable {fs fs' : FileSystem} {path : Path} {front names : List String} {name : String} {base : Place}

theorem locate (h : fs.Clear path front names base) (hne : path ≠ "") :
    fs.locate path = .ok (base ++ names) ∨ fs.locate path = .error .notFound := by
  have hnames := fs.foldlM_step_names names base h.isName h.noFile
  rw [FileSystem.locate, if_neg hne, h.parts, List.foldlM_append, h.walked]
  exact hnames

theorem named (h : fs.Clear path front names base) : fs.named path = base ++ names := by
  have hfront := fs.foldlM_step_named front _ base h.walked
  rw [FileSystem.named, h.parts, List.foldl_append, ← hfront, foldl_walk_names names base h.isName]

theorem alters {allowed : Place → Node → Prop} (h : fs.Clear path front names base) (halters : fs.Alters fs' allowed)
    (hallowed : ∀ way, way <+: names → ∀ content, ¬ allowed (base ++ way) (.file content)) :
    fs'.Clear path front names base where
  parts := h.parts
  isName := h.isName
  walked := by
    rw [halters.spares_root.start]
    exact halters.spares_root.foldlM_step front _ base h.walked
  directory := halters.directory base h.directory
  noFile way hway content hfile :=
    h.noFile way hway content (((halters.spares _ (hallowed way hway)).file content).1 hfile)

/-- Below a place that is clear, it is enough that no file is at the places further on. -/
theorem append {more : List String} {target : Path} (h : fs.Clear path front names base)
    (hparts : target.parts = path.parts ++ more) (hstart : fs.start target = fs.start path)
    (hmore : ∀ name ∈ more, IsName name)
    (hfree : ∀ name way, name :: way <+: more → ∀ content, fs.find? (base ++ names ++ name :: way) ≠ some (.file content)) :
    fs.Clear target front (names ++ more) base := by
  refine ⟨by rw [hparts, h.parts, List.append_assoc], ?_, hstart ▸ h.walked, h.directory, ?_⟩
  · rw [List.forall_mem_append]
    exact ⟨h.isName, hmore⟩
  · intro way hway content
    rcases List.prefix_or_prefix_of_prefix hway (List.prefix_append _ _) with hnames | ⟨below, rfl⟩
    · exact h.noFile way hnames content
    · cases below with
      | nil =>
        rw [List.append_nil]
        exact h.noFile names List.prefix_rfl content
      | cons name below =>
        rw [← List.append_assoc]
        exact hfree name below ((List.prefix_append_right_inj _).1 hway) content

theorem parent (h : fs.Clear path front (names ++ [name]) base) :
    ∃ parent kept, path.parent? = some parent ∧ fs.Clear parent kept names base := by
  have hdots : "." ∉ names ++ [name] := fun hdot => (h.isName _ hdot).dot rfl
  obtain ⟨parent, kept, hparent, hparts, habsolute, hkept⟩ := parent_of_parts h.parts hdots
  refine ⟨parent, kept, hparent, hparts, fun n hn => h.isName n (List.mem_append_left _ hn), ?_, h.directory, ?_⟩
  · rw [start, habsolute]
    exact (fs.foldlM_step_kept _ hkept h.directory).2 h.walked
  · exact fun way hway => h.noFile way (hway.trans (List.prefix_append _ _))

end Clear

theorem createDirectories_of_located {fs : FileSystem} {path : Path} {place : Place} (hne : path ≠ "")
    (hlocate : fs.locate path = .ok place) (hfree : ∀ content, fs.find? place ≠ some (.file content)) (depth : Nat) :
    ∃ fs', createDirectories (depth + 1) path fs = (.ok (), fs') ∧ fs'.Leads path place ∧
      fs.Alters fs' fun p node => p = place ∧ node = .directory := by
  obtain ⟨result, fs', hchange, hfound, hexcuse, hlocate', hdirectory, halters⟩ := makes_one hlocate hfree
  refine ⟨fs', ?_, .of_locate hne hlocate' hdirectory, halters⟩
  rw [createDirectories, if_neg hne]
  refine (bind_of_eq hchange).trans ?_
  split
  · contradiction
  · exact hexcuse

theorem createDirectories_of_missing {fs made : FileSystem} {path parent : Path} {place : Place} {depth : Nat}
    (hne : path ≠ "") (hmissing : fs.locate path = .error .notFound) (hparent : path.parent? = some parent)
    (hmade : createDirectories depth parent fs = (.ok (), made)) (hlocate : made.locate path = .ok place)
    (hfree : ∀ content, made.find? place ≠ some (.file content)) :
    ∃ fs', createDirectories (depth + 1) path fs = (.ok (), fs') ∧ fs'.Leads path place ∧
      made.Alters fs' fun p node => p = place ∧ node = .directory := by
  obtain ⟨result, fs', hchange, -, hexcuse, hlocate', hdirectory, halters⟩ := makes_one hlocate hfree
  have hfirst : change (·.createDirectory path) fs = (.error .notFound, fs) := by
    rw [change_error_iff, createDirectory, hmissing]
    exact ⟨rfl, rfl⟩
  have habove : createDirectories depth (path.parent?.getD "") fs = (.ok (), made) := by
    rw [hparent]
    exact hmade
  refine ⟨fs', ?_, .of_locate hne hlocate' hdirectory, halters⟩
  rw [createDirectories, if_neg hne]
  exact (bind_of_eq hfirst).trans ((bind_of_eq habove).trans ((bind_of_eq hchange).trans hexcuse))

theorem createDirectories_of_clear (names : List String) {base : Place} {fs : FileSystem} {path : Path}
    {front : List String} (h : fs.Clear path front names base) (depth : Nat) (hdepth : names.length < depth) :
    ∃ fs', createDirectories depth path fs = (.ok (), fs') ∧ fs'.Leads path (base ++ names) ∧
      fs.Alters fs' fun p node => p <+: base ++ names ∧ node = .directory := by
  induction names using List.reverseRecOn generalizing depth path front with
  | nil =>
    obtain ⟨depth, rfl⟩ := Nat.exists_eq_succ_of_ne_zero (Nat.ne_of_gt hdepth)
    have hleads : fs.Leads path (base ++ []) := by
      rw [List.append_nil]
      refine ⟨?_, h.directory⟩
      rw [h.parts, List.append_nil]
      exact h.walked
    exact ⟨fs, hleads.createDirectories depth, hleads, .refl _ _⟩
  | append_singleton names name ih =>
    obtain ⟨depth, rfl⟩ := Nat.exists_eq_succ_of_ne_zero (Nat.ne_of_gt (Nat.zero_lt_of_lt hdepth))
    rw [List.length_append, List.length_singleton] at hdepth
    have hname : IsName name := h.isName name (by simp)
    have hne : path ≠ "" := ne_empty_of_parts (h.parts.trans (List.append_assoc _ _ _).symm)
    rcases h.locate hne with hlocate | hmissing
    · obtain ⟨fs', hrun, hleads, halters⟩ := createDirectories_of_located hne hlocate (h.noFile _ List.prefix_rfl) depth
      exact ⟨fs', hrun, hleads, halters.mono fun p node hnode => ⟨hnode.1 ▸ List.prefix_rfl, hnode.2⟩⟩
    · -- a directory above is missing, and after all of them are made nothing is in the way of the last
      obtain ⟨parent, kept, hparent, hclear⟩ := h.parent
      obtain ⟨made, hmade, hleads, habove⟩ := ih hclear depth (by omega)
      have hlocate := hleads.locate_of_parent hparent (by rw [h.parts, ← List.append_assoc]) hname
      rw [List.append_assoc] at hlocate
      have hfree : ∀ content, made.find? (base ++ (names ++ [name])) ≠ some (.file content) := by
        have hspares := habove.spares (base ++ (names ++ [name])) fun content hfile => Node.noConfusion hfile.2
        intro content hfile
        exact h.noFile _ List.prefix_rfl content ((hspares.file content).1 hfile)
      obtain ⟨fs', hrun, hleads', hlast⟩ := createDirectories_of_missing hne hmissing hparent hmade hlocate hfree
      have hupTo : base ++ names <+: base ++ (names ++ [name]) := by
        rw [← List.append_assoc]
        exact List.prefix_append _ _
      refine ⟨fs', hrun, hleads', (habove.mono ?_).trans (hlast.mono ?_)⟩
      · exact fun p node hnode => ⟨hnode.1.trans hupTo, hnode.2⟩
      · exact fun p node hnode => ⟨hnode.1 ▸ List.prefix_rfl, hnode.2⟩

/-- Where no file stands in the way, the directory of a path is made. -/
theorem makeDirectories_of_clear {fs : FileSystem} {path : Path} {front names : List String} {base : Place}
    (h : fs.Clear path front names base) :
    ∃ fs', makeDirectories path fs = (.ok (), fs') ∧ fs'.Leads path (base ++ names) ∧
      fs.Alters fs' fun p node => p <+: base ++ names ∧ node = .directory := by
  have hlength := congrArg List.length h.parts
  rw [List.length_append] at hlength
  exact createDirectories_of_clear names h _ (by omega)

end CardIndex.FileSystem
