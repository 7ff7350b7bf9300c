import CardIndex.Disk.Path
import Mathlib.Data.List.Induction

namespace CardIndex.Path

/-- A name that a directory may list. -/
structure IsName (name : String) : Prop where
  slash : '/' ∉ name.toList
  empty : name ≠ ""
  dot : name ≠ "."
  dots : name ≠ ".."

theorem isName_of_length {name : String} (h : '/' ∉ name.toList) (hlength : 2 < name.length) : IsName name := by
  constructor
  · exact h
  · rintro rfl
    exact absurd hlength (by decide)
  · rintro rfl
    exact absurd hlength (by decide)
  · rintro rfl
    exact absurd hlength (by decide)

theorem splitOnP_name {name : List Char} (h : '/' ∉ name) : name.splitOnP (· = '/') = [name] := by
  apply List.splitOnP_eq_singleton
  intro c hc
  apply decide_eq_false
  intro hslash
  exact h (hslash ▸ hc)

theorem parts_append {p front rest : Path} (h : p.toList = front.toList ++ '/' :: rest.toList) :
    parts p = parts front ++ parts rest := by
  simp [parts, h, List.splitOnP_append_cons]

@[simp] theorem parts_empty : parts "" = [] := by decide

theorem ne_empty_of_parts {p : Path} {front : List String} {name : String} (h : parts p = front ++ [name]) : p ≠ "" := by
  rintro rfl
  simp at h

theorem parts_name {name : String} (h : '/' ∉ name.toList) (hne : name ≠ "") : parts name = [name] := by
  simp [parts, splitOnP_name h, hne]

theorem isAbsolute_name {name : String} (h : '/' ∉ name.toList) : isAbsolute name = false := by
  apply decide_eq_false
  intro hhead
  exact h (List.mem_of_head? hhead)

theorem mem_of_mem_stemOf {name : List Char} {c : Char} (h : c ∈ stemOf name) : c ∈ name := by
  unfold stemOf at h
  dsimp only at h
  split at h
  · exact h
  · exact List.mem_of_mem_take h

theorem stemOf_append {name fileType : List Char} (hne : name ≠ []) (htype : '.' ∉ fileType) :
    stemOf (name ++ '.' :: fileType) = name := by
  have hlast : (name ++ '.' :: fileType).reverse.takeWhile (· ≠ '.') = fileType.reverse := by
    have hall : ∀ c ∈ fileType.reverse, decide (c ≠ '.') = true := by
      intro c hc
      apply decide_eq_true
      intro hdot
      exact htype (hdot ▸ List.mem_reverse.1 hc)
    have hreverse : (name ++ '.' :: fileType).reverse = fileType.reverse ++ '.' :: name.reverse := by simp
    rw [hreverse, List.takeWhile_append_of_pos hall]
    simp
  have hpos := List.length_pos_iff.2 hne
  have hlength : (name ++ '.' :: fileType).length - fileType.reverse.length - 1 = name.length := by
    simp
    omega
  unfold stemOf
  dsimp only
  rw [hlast, hlength, List.take_left, if_neg]
  simp [hne]
  omega

/-- A path up to its last slash, and what stands behind it. -/
structure EndsIn (p : Path) (front last : List Char) : Prop where
  text : p.toList = front ++ last
  slash : '/' ∉ last
  ends : front = [] ∨ ∃ before, front = before ++ ['/']

theorem exists_endsIn (text : List Char) : ∃ front last, EndsIn (String.ofList text) front last := by
  induction text using List.reverseRecOn with
  | nil => exact ⟨[], [], ⟨by simp, by simp, .inl rfl⟩⟩
  | append_singleton text c ih =>
    obtain ⟨front, last, h⟩ := ih
    by_cases hc : c = '/'
    · exact ⟨text ++ [c], [], ⟨by simp, by simp, .inr ⟨text, by rw [hc]⟩⟩⟩
    · have htext := h.text
      rw [String.toList_ofList] at htext
      refine ⟨front, last ++ [c], ⟨by simp [htext], ?_, h.ends⟩⟩
      simpa [Ne.symm hc] using h.slash

namespace EndsIn

variable {p : Path} {front last : List Char}

theorem append (h : EndsIn p front last) {more : List Char} (hmore : '/' ∉ more) {q : Path}
    (hq : q.toList = p.toList ++ more) : EndsIn q front (last ++ more) :=
  ⟨by rw [hq, h.text, List.append_assoc], by simp [h.slash, hmore], h.ends⟩

theorem parts (h : EndsIn p front last) (hne : last ≠ []) :
    parts p = Path.parts (String.ofList front) ++ [String.ofList last] := by
  have hlast : Path.parts (String.ofList last) = [String.ofList last] :=
    parts_name (by simpa using h.slash) (by simpa [← String.toList_inj] using hne)
  have hnone : Path.parts (String.ofList []) = [] := by decide
  rcases h.ends with rfl | ⟨before, rfl⟩
  · have hp : p = String.ofList last := by simpa [← String.toList_inj] using h.text
    rw [hp, hlast, hnone]
    rfl
  · have hp : Path.parts p = Path.parts (String.ofList before) ++ Path.parts (String.ofList last) :=
      parts_append (by simpa using h.text)
    have hfront : Path.parts (String.ofList (before ++ ['/'])) =
        Path.parts (String.ofList before) ++ Path.parts (String.ofList []) := parts_append (by simp)
    rw [hp, hfront, hlast, hnone, List.append_nil]

theorem splitOnP (h : EndsIn p front last) : (p.toList.splitOnP (· = '/')).getLast? = some last := by
  rcases h.ends with rfl | ⟨before, rfl⟩
  · rw [h.text, List.nil_append, splitOnP_name h.slash]
    rfl
  · have htext : p.toList = before ++ '/' :: last := by simp [h.text]
    rw [htext, List.splitOnP_append_cons _ _ (by simp), splitOnP_name h.slash]
    simp

theorem toList_withFileType (h : EndsIn p front last) (fileType : String) :
    (p.withFileType fileType).toList =
      front ++ (stemOf last ++ '.' :: if stemOf last = ['.'] then [] else fileType.toList) := by
  have htake : p.toList.take (p.toList.length - last.length) = front := by
    rw [h.text, List.length_append, Nat.add_sub_cancel, List.take_left]
  unfold withFileType
  rw [h.splitOnP, Option.getD_some]
  dsimp only
  rw [htake]
  split <;> simp

/-- Another file type concerns the last part alone. -/
theorem withFileType (h : EndsIn p front last) {fileType : String} (htype : '/' ∉ fileType.toList)
    (hstem : stemOf last ≠ ['.']) :
    EndsIn (p.withFileType fileType) front (stemOf last ++ '.' :: fileType.toList) := by
  have hslash : '/' ∉ stemOf last := fun hmem => h.slash (mem_of_mem_stemOf hmem)
  refine ⟨?_, by simp [hslash, htype], h.ends⟩
  rw [h.toList_withFileType, if_neg hstem]

/-- If a dot is left of the last part, the path becomes one to the directory above. -/
theorem withFileType_dots (h : EndsIn p front last) (fileType : String) (hstem : stemOf last = ['.']) :
    (p.withFileType fileType).asksForDirectory = true := by
  have hdots : EndsIn (p.withFileType fileType) front ['.', '.'] := by
    refine ⟨?_, by decide, h.ends⟩
    rw [h.toList_withFileType, if_pos hstem, hstem]
    rfl
  have hlast : (Path.parts (p.withFileType fileType)).getLast? = some ".." := by
    rw [hdots.parts (by simp), List.getLast?_concat]
  simp [asksForDirectory, hlast]

/-- A path to a name can lead to a file. -/
theorem asksForDirectory (h : EndsIn p front last) (hlast : IsName (String.ofList last)) :
    p.asksForDirectory = false := by
  have hne : last ≠ [] := by
    rintro rfl
    exact hlast.empty rfl
  have hslash : p.toList.getLast? ≠ some '/' := by
    rw [h.text, List.getLast?_append, List.getLast?_eq_some_getLast hne, Option.some_or]
    intro hslash
    exact h.slash (Option.some.inj hslash ▸ List.getLast_mem hne)
  simp [Path.asksForDirectory, hslash, h.parts hne, hlast.dot, hlast.dots]

end EndsIn

/-- A path that starts anywhere but at the root is put behind another with a slash between them, if that one is not
empty. -/
theorem toList_join (base : Path) : base = "" ∨ ∃ front, parts front = parts base ∧
    ∀ p, isAbsolute p = false → (base.join p).toList = front.toList ++ '/' :: p.toList := by
  by_cases hempty : base.toList = []
  · exact .inl (String.toList_eq_nil_iff.1 hempty)
  right
  have hlast := List.getLast?_eq_some_getLast hempty
  by_cases hslash : base.toList.getLast hempty = '/'
  · have hbase : base.toList = base.toList.dropLast ++ ['/'] := by
      rw [← hslash, List.dropLast_concat_getLast]
    refine ⟨String.ofList base.toList.dropLast, ?_, ?_⟩
    · have hparts : parts base = parts (String.ofList base.toList.dropLast) ++ parts "" := by
        apply parts_append
        simpa using hbase
      rw [hparts, parts_empty, List.append_nil]
    · intro p hp
      have hjoin : base.join p = base ++ p := by
        simp [join, hp, hlast, hslash]
      have happend := congrArg (· ++ p.toList) hbase
      rw [hjoin, String.toList_append, String.toList_ofList]
      simpa using happend
  · refine ⟨base, rfl, ?_⟩
    intro p hp
    have hjoin : base.join p = base ++ "/" ++ p := by
      simp [join, hp, hlast, hslash]
    simp [hjoin]

theorem join_empty {p : Path} (h : isAbsolute p = false) : join "" p = p := by
  simp [join, h]

theorem join_absolute (base : Path) {p : Path} (h : isAbsolute p = true) : base.join p = p := by
  simp [join, h]

/-- Joining paths puts their parts behind each other. -/
theorem parts_join_relative (base : Path) {p : Path} (h : isAbsolute p = false) :
    parts (base.join p) = parts base ++ parts p := by
  rcases toList_join base with rfl | ⟨front, hfront, hjoin⟩
  · rw [join_empty h]
    rfl
  · rw [parts_append (hjoin p h), hfront]

theorem parts_join (base : Path) {name : String} (h : '/' ∉ name.toList) (hne : name ≠ "") :
    parts (base.join name) = parts base ++ [name] := by
  rw [parts_join_relative base (isAbsolute_name h), parts_name h hne]

theorem isAbsolute_join (base : Path) {p : Path} (h : isAbsolute p = false) :
    isAbsolute (base.join p) = isAbsolute base := by
  by_cases hempty : base = ""
  · subst hempty
    rw [join_empty h, h]
    rfl
  · have hhead (rest : String) : isAbsolute (base ++ rest) = isAbsolute base := by
      have hne : base.toList ≠ [] := by simpa using hempty
      unfold isAbsolute
      rw [String.toList_append, List.head?_append]
      cases hbase : base.toList with
      | nil => exact absurd hbase hne
      | cons c cs => rfl
    unfold join
    rw [h]
    split
    · contradiction
    · split
      · exact hhead p
      · rw [String.append_assoc]
        exact hhead ("/" ++ p)

theorem endsIn_join (base : Path) :
    ∃ front, ∀ name, '/' ∉ name.toList → EndsIn (base.join name) front name.toList := by
  rcases toList_join base with rfl | ⟨front, -, hjoin⟩
  · exact ⟨[], fun name h => ⟨by rw [join_empty (isAbsolute_name h)]; rfl, h, .inl rfl⟩⟩
  · refine ⟨front.toList ++ ['/'], fun name h => ⟨?_, h, .inr ⟨_, rfl⟩⟩⟩
    rw [hjoin name (isAbsolute_name h), List.append_cons]

/-- Behind another path, a path still ends with its name. -/
theorem EndsIn.join {p : Path} {front last : List Char} (h : EndsIn p front last) (hrelative : isAbsolute p = false)
    (base : Path) : ∃ front', EndsIn (base.join p) front' last := by
  rcases toList_join base with rfl | ⟨above, -, hjoin⟩
  · rw [join_empty hrelative]
    exact ⟨front, h⟩
  · refine ⟨above.toList ++ '/' :: front, ?_, h.slash, .inr ?_⟩
    · rw [hjoin p hrelative, h.text]
      simp
    · rcases h.ends with rfl | ⟨before, rfl⟩
      · exact ⟨above.toList, rfl⟩
      · exact ⟨above.toList ++ '/' :: before, by simp⟩

theorem join_ne_empty (base : Path) {name : String} (h : '/' ∉ name.toList) (hne : name ≠ "") :
    base.join name ≠ "" :=
  ne_empty_of_parts (parts_join base h hne)

theorem asksForDirectory_join (base : Path) {name : String} (h : IsName name) :
    asksForDirectory (base.join name) = false := by
  obtain ⟨front, hends⟩ := endsIn_join base
  exact (hends name h.slash).asksForDirectory (by rwa [String.ofList_toList])

/-- Another file type concerns the name alone. -/
theorem withFileType_join (base : Path) {name fileType : String} (h : '/' ∉ name.toList)
    (hstem : stemOf name.toList ≠ ['.']) (htype : '/' ∉ fileType.toList) :
    (base.join name).withFileType fileType = base.join (String.ofList (stemOf name.toList) ++ "." ++ fileType) := by
  have hother : '/' ∉ (String.ofList (stemOf name.toList) ++ "." ++ fileType).toList := by
    have hslash : '/' ∉ stemOf name.toList := fun hmem => h (mem_of_mem_stemOf hmem)
    simp [hslash, htype]
  obtain ⟨front, hends⟩ := endsIn_join base
  rw [← String.toList_inj, (hends name h).toList_withFileType, if_neg hstem, (hends _ hother).text]
  simp

end CardIndex.Path
