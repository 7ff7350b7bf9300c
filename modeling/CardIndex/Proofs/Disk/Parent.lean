import CardIndex.Proofs.Disk.Path
import CardIndex.Proofs.Text.Splitting

namespace CardIndex.Path

theorem notMem_of_mem_splitOnP (text : List Char) : ∀ piece ∈ text.splitOnP (· = '/'), '/' ∉ piece := by
  intro piece hpiece hslash
  have hnone := Text.of_mem_splitOnP (· = '/') text piece hpiece '/' hslash
  exact of_decide_eq_false hnone rfl

/-- No part of a path is empty or has a slash in it. -/
theorem of_mem_parts {p : Path} {part : String} (h : part ∈ parts p) : '/' ∉ part.toList ∧ part ≠ "" := by
  obtain ⟨hmem, hne⟩ := List.mem_filter.1 h
  obtain ⟨piece, hpiece, rfl⟩ := List.mem_map.1 hmem
  rw [String.toList_ofList]
  exact ⟨notMem_of_mem_splitOnP _ piece hpiece, of_decide_eq_true hne⟩

theorem parts_intercalate (names : List String) (h : ∀ name ∈ names, '/' ∉ name.toList ∧ name ≠ "") :
    parts ("/".intercalate names) = names := by
  induction names with
  | nil => decide
  | cons name names ih =>
    rw [List.forall_mem_cons] at h
    cases names with
    | nil => simpa using parts_name h.1.1 h.1.2
    | cons next names =>
      have htext : ("/".intercalate (name :: next :: names)).toList =
          name.toList ++ '/' :: ("/".intercalate (next :: names)).toList := by
        simp [String.toList_intercalate]
      rw [parts_append htext, parts_name h.1.1 h.1.2, ih h.2]
      rfl

/-- Without parts a path is empty or leads to the root. -/
theorem eq_empty_or_isAbsolute {p : Path} (h : parts p = []) : p = "" ∨ isAbsolute p = true := by
  by_cases hslash : '/' ∈ p.toList
  · obtain ⟨front, rest, hp, hfront⟩ := List.eq_append_cons_of_mem hslash
    have hparts : parts p = parts (String.ofList front) ++ parts (String.ofList rest) := parts_append (by simpa using hp)
    rw [hparts, List.append_eq_nil_iff] at h
    cases front with
    | nil => exact .inr (by simp [isAbsolute, hp])
    | cons c front =>
      have hname : parts (String.ofList (c :: front)) = [String.ofList (c :: front)] :=
        parts_name (by simpa using hfront) (by simp)
      rw [hname] at h
      cases h.1
  · by_cases hempty : p = ""
    · exact .inl hempty
    · rw [parts_name hslash hempty] at h
      cases h

/-- A path that can lead to a file ends with a name. -/
theorem exists_name {p : Path} (hne : p ≠ "") (h : p.asksForDirectory = false) :
    ∃ front name, parts p = front ++ [name] ∧ IsName name := by
  obtain ⟨front, last, hends⟩ := exists_endsIn p.toList
  rw [String.ofList_toList] at hends
  simp only [asksForDirectory, Bool.or_eq_false_iff, decide_eq_false_iff_not] at h
  obtain ⟨⟨hslash, hdot⟩, hdots⟩ := h
  by_cases hlast : last = []
  · rcases hends.ends with hfront | ⟨before, hfront⟩
    · have hempty : p.toList = [] := by simpa [hlast, hfront] using hends.text
      exact absurd (String.toList_eq_nil_iff.1 hempty) hne
    · exact absurd (by simp [hends.text, hlast, hfront]) hslash
  · have hparts := hends.parts hlast
    rw [hparts, List.getLast?_concat] at hdot hdots
    refine ⟨_, _, hparts, by simpa using hends.slash, by simpa using hlast, ?_, ?_⟩
    · exact fun heq => hdot (congrArg some heq)
    · exact fun heq => hdots (congrArg some heq)

/-- Names with slashes between them, and one in front for an absolute path. -/
def ofNames (absolute : Bool) (names : List String) : Path :=
  (if absolute then "/" else "") ++ "/".intercalate names

theorem parts_ofNames (absolute : Bool) (names : List String) (h : ∀ name ∈ names, '/' ∉ name.toList ∧ name ≠ "") :
    parts (ofNames absolute names) = names := by
  cases absolute with
  | false => simpa [ofNames] using parts_intercalate names h
  | true =>
    have htext : (ofNames true names).toList = "".toList ++ '/' :: ("/".intercalate names).toList := by
      simp [ofNames]
    rw [parts_append htext, parts_intercalate names h, parts_empty, List.nil_append]

theorem isAbsolute_ofNames (absolute : Bool) (names : List String)
    (h : ∀ name ∈ names, '/' ∉ name.toList ∧ name ≠ "") : isAbsolute (ofNames absolute names) = absolute := by
  cases absolute with
  | true => simp [ofNames, isAbsolute]
  | false =>
    cases names with
    | nil => decide
    | cons name names =>
      rw [List.forall_mem_cons] at h
      obtain ⟨c, cs, hname⟩ := List.exists_cons_of_ne_nil (String.toList_eq_nil_iff.not.2 h.1.2)
      have hslash : c ≠ '/' := by
        intro hc
        exact h.1.1 (by simp [hname, hc])
      have hhead : (ofNames false (name :: names)).toList.head? = some c := by
        cases names <;> simp [ofNames, String.toList_intercalate, hname]
      simp [isAbsolute, hhead, hslash]

theorem mem_parts_of_mem_steps {p : Path} {part : String} (h : part ∈ steps p) : part ∈ parts p := by
  unfold steps at h
  split at h
  · rename_i rest hparts
    rw [hparts]
    rcases List.mem_append.1 h with hdot | hrest
    · have : part = "." := by
        split at hdot
        · cases hdot
        · exact List.mem_singleton.1 hdot
      exact this ▸ List.mem_cons_self
    · exact List.mem_cons_of_mem _ (List.mem_filter.1 hrest).1
  · exact (List.mem_filter.1 h).1

theorem parent?_eq (p : Path) :
    parent? p = if steps p = [] then none else some (ofNames (isAbsolute p) (steps p).dropLast) := by
  unfold parent?
  cases hsteps : (steps p).reverse with
  | nil => simp [List.reverse_eq_nil_iff.1 hsteps]
  | cons last before =>
    have hall : steps p = before.reverse ++ [last] := by
      rw [← List.reverse_reverse (steps p), hsteps, List.reverse_cons]
    simp [hall, ofNames]

/-- The directory above is named as the path is, by all steps but the last. -/
theorem of_parent?_eq_some {p q : Path} (h : parent? p = some q) :
    parts q = (steps p).dropLast ∧ isAbsolute q = isAbsolute p := by
  have hnames : ∀ name ∈ (steps p).dropLast, '/' ∉ name.toList ∧ name ≠ "" := fun name hname =>
    of_mem_parts (mem_parts_of_mem_steps (List.dropLast_subset _ hname))
  rw [parent?_eq] at h
  split at h
  · cases h
  · obtain rfl := Option.some.inj h
    exact ⟨parts_ofNames _ _ hnames, isAbsolute_ofNames _ _ hnames⟩

/-- The steps of a path are its parts but for dots. Names at its end are steps as they are. -/
theorem steps_of_parts {p : Path} {front names : List String} (h : parts p = front ++ names) (hnames : "." ∉ names) :
    ∃ kept, steps p = kept ++ names ∧
      (kept = front.filter (· ≠ ".") ∨ ∃ rest, front = "." :: rest ∧ kept = "." :: rest.filter (· ≠ ".")) := by
  have hkept : names.filter (· ≠ ".") = names := by
    rw [List.filter_eq_self]
    intro name hname
    exact decide_eq_true fun hdot => hnames (hdot ▸ hname)
  unfold steps
  split
  · rename_i rest hparts
    rw [hparts] at h
    cases front with
    | nil =>
      rw [List.nil_append] at h
      exact absurd (h ▸ List.mem_cons_self) hnames
    | cons first front =>
      rw [List.cons_append] at h
      obtain ⟨rfl, rfl⟩ := List.cons.inj h
      rw [List.filter_append, hkept]
      cases isAbsolute p with
      | true => exact ⟨front.filter (· ≠ "."), by simp, .inl (by simp)⟩
      | false => exact ⟨"." :: front.filter (· ≠ "."), by simp, .inr ⟨front, rfl, rfl⟩⟩
  · exact ⟨front.filter (· ≠ "."), by rw [h, List.filter_append, hkept], .inl rfl⟩

end CardIndex.Path
