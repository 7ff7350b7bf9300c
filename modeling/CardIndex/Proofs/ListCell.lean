import CardIndex.Proofs.Cell
import CardIndex.Proofs.Text.Splitting

namespace CardIndex.Cell

open Json Text

/-- A text that is one entry of a list, also where the list is a text. -/
structure Entry (s : String) : Prop extends Settled s where
  plain : ∀ c ∈ s.toList, isListSeparator c = false

/-- An item that stands for no entry. -/
inductive Filler : Value → Prop
  | null : Filler .null
  | blank (s : String) (h : ∀ c ∈ s.toList, isBlank c) : Filler (.string s)
  | emptyArray : Filler (.array [])

/-- The items hold the entries in their order, as texts with any white space around them, among fillers. -/
inductive Holds : List String → List Value → Prop
  | nil : Holds [] []
  | entry {entries : List String} {items : List Value} (before s after : String)
      (hbefore : ∀ c ∈ before.toList, isBlank c) (hafter : ∀ c ∈ after.toList, isBlank c) (h : Holds entries items) :
      Holds (s :: entries) (.string (before ++ s ++ after) :: items)
  | filler {entries : List String} {items : List Value} {v : Value} (hv : Filler v) (h : Holds entries items) :
      Holds entries (v :: items)

/-- White space and separators. -/
def Gap (cs : List Char) : Prop := ∀ c ∈ cs, isBlank c ∨ isListSeparator c

instance (cs : List Char) : Decidable (Gap cs) := List.decidableBAll _ cs

/-- The text lists the entries in their order, with a separator at least between two neighbours. -/
inductive Lists : List String → List Char → Prop
  | nil {gap : List Char} (h : Gap gap) : Lists [] gap
  | last {before after : List Char} (s : String) (hbefore : Gap before) (hafter : Gap after) :
      Lists [s] (before ++ s.toList ++ after)
  | cons {before between rest : List Char} {next : String} {entries : List String} (s : String)
      (hbefore : Gap before) (hbetween : Gap between) (separated : ∃ c ∈ between, isListSeparator c)
      (h : Lists (next :: entries) rest) : Lists (s :: next :: entries) (before ++ s.toList ++ between ++ rest)

theorem text_filler {v : Value} (h : Filler v) : text v = "" := by
  cases h with
  | null => rfl
  | blank s h =>
    have htrim := trim_append_blank [] h
    rw [List.nil_append] at htrim
    rw [text, String.trimBlank, htrim]
    rfl
  | emptyArray => rfl

theorem text_padded {before s after : String} (hbefore : ∀ c ∈ before.toList, isBlank c)
    (hafter : ∀ c ∈ after.toList, isBlank c) (h : Trimmed s.toList) : text (.string (before ++ s ++ after)) = s := by
  rw [text, String.trimBlank, String.toList_append, String.toList_append, trim_append_blank _ hafter,
    trim_blank_append _ hbefore, h.trim, String.ofList_toList]

/-- An array is read as the entries that it holds. -/
theorem list_array {entries : List String} {items : List Value} (hentries : ∀ s ∈ entries, Settled s)
    (h : Holds entries items) : list (.array items) = entries := by
  rw [list]
  induction h with
  | nil => rfl
  | entry before s after hbefore hafter h ih =>
    rw [List.forall_mem_cons] at hentries
    obtain ⟨hs, hentries⟩ := hentries
    rw [texts, text_padded hbefore hafter hs.trimmed, List.filter_cons_of_pos, ih hentries]
    exact decide_eq_true hs.ne_empty
  | filler hv h ih =>
    rw [texts, text_filler hv]
    exact ih hentries

/-- The entries of a text. -/
def parts (cs : List Char) : List (List Char) := trimmedPieces (cs.splitOnP isListSeparator)

theorem parts_nil : parts [] = [] := rfl

/-- A piece before a separator is an entry by itself, unless it is blank. -/
theorem parts_append_cons {piece : List Char} (hpiece : ∀ d ∈ piece, isListSeparator d = false) {c : Char}
    (hc : isListSeparator c) (rest : List Char) :
    parts (piece ++ c :: rest) = trimmedPieces [piece] ++ parts rest := by
  rw [parts, List.splitOnP_append_cons_of_forall_mem hpiece c hc]
  exact List.filter_append [trim piece] _

theorem parts_of_plain {piece : List Char} (hpiece : ∀ d ∈ piece, isListSeparator d = false) :
    parts piece = trimmedPieces [piece] := by
  rw [parts, List.splitOnP_eq_singleton hpiece]

theorem trimmedPieces_singleton_congr {piece piece' : List Char} (h : trim piece = trim piece') :
    trimmedPieces [piece] = trimmedPieces [piece'] := by
  rw [trimmedPieces, List.map_singleton, h]
  rfl

theorem not_separator_of_isBlank {c : Char} (h : isBlank c) : isListSeparator c = false := by
  rw [← Bool.not_eq_true]
  intro hc
  simp only [isListSeparator, Bool.or_eq_true, decide_eq_true_eq] at hc
  rcases hc with rfl | rfl
  · exact absurd h (by decide)
  · exact absurd h (by decide)

theorem parts_blank_append {blanks : List Char} (h : ∀ c ∈ blanks, isBlank c) (cs : List Char) :
    parts (blanks ++ cs) = parts cs := by
  have hblanks : ∀ d ∈ blanks, isListSeparator d = false := fun d hd => not_separator_of_isBlank (h d hd)
  induction cs using split_induction isListSeparator with
  | last piece hpiece =>
    rw [parts_of_plain hpiece, parts_of_plain fun d hd => (List.mem_append.1 hd).elim (hblanks d) (hpiece d)]
    exact trimmedPieces_singleton_congr (trim_blank_append piece h)
  | more piece c rest hpiece hc ih =>
    rw [← List.append_assoc, parts_append_cons hpiece hc,
      parts_append_cons (fun d hd => (List.mem_append.1 hd).elim (hblanks d) (hpiece d)) hc,
      trimmedPieces_singleton_congr (trim_blank_append piece h)]

theorem parts_append_blank {blanks : List Char} (h : ∀ c ∈ blanks, isBlank c) (cs : List Char) :
    parts (cs ++ blanks) = parts cs := by
  have hblanks : ∀ d ∈ blanks, isListSeparator d = false := fun d hd => not_separator_of_isBlank (h d hd)
  induction cs using split_induction isListSeparator with
  | last piece hpiece =>
    rw [parts_of_plain hpiece, parts_of_plain fun d hd => (List.mem_append.1 hd).elim (hpiece d) (hblanks d)]
    exact trimmedPieces_singleton_congr (trim_append_blank piece h)
  | more piece c rest hpiece hc ih =>
    rw [List.append_assoc, List.cons_append, parts_append_cons hpiece hc, parts_append_cons hpiece hc, ih]

/-- A text may be trimmed before it is cut. -/
theorem parts_trim (cs : List Char) : parts (trim cs) = parts cs := by
  obtain ⟨before, hcs, hbefore⟩ := trimStart_append cs
  obtain ⟨after, htrim, hafter⟩ := trimEnd_append (trimStart cs)
  calc parts (trim cs) = parts (trim cs ++ after) := (parts_append_blank hafter _).symm
    _ = parts (trimStart cs) := congrArg parts htrim.symm
    _ = parts (before ++ trimStart cs) := (parts_blank_append hbefore _).symm
    _ = parts cs := congrArg parts hcs.symm

/-- A gap at the start holds no entry. -/
theorem parts_gap_append {gap : List Char} (h : Gap gap) (cs : List Char) : parts (gap ++ cs) = parts cs := by
  induction gap with
  | nil => rfl
  | cons c gap ih =>
    obtain ⟨hc, hgap⟩ := List.forall_mem_cons.1 h
    rw [← ih hgap]
    rcases hc with hblank | hseparator
    · exact parts_blank_append (List.forall_mem_singleton.2 hblank) (gap ++ cs)
    · exact parts_append_cons (List.forall_mem_nil _) hseparator (gap ++ cs)

theorem trimmedPieces_entry {s : String} (h : Entry s) {blanks : List Char} (hblanks : ∀ c ∈ blanks, isBlank c) :
    trimmedPieces [s.toList ++ blanks] = [s.toList] := by
  have htrim := (trim_append_blank s.toList hblanks).trans h.trimmed.trim
  have hne : s.toList ≠ [] := fun hnil => h.ne_empty (String.toList_eq_nil_iff.1 hnil)
  rw [trimmedPieces, List.map_singleton, htrim]
  simpa using hne

/-- An entry ends at the first separator behind it, or with the text. -/
theorem parts_entry_append {s : String} (h : Entry s) {gap : List Char} (hgap : Gap gap) (rest : List Char)
    (hrest : rest = [] ∨ ∃ c ∈ gap, isListSeparator c) : parts (s.toList ++ gap ++ rest) = s.toList :: parts rest := by
  have hplain {blanks : List Char} (hblanks : ∀ d ∈ blanks, isListSeparator d = false) :
      ∀ d ∈ s.toList ++ blanks, isListSeparator d = false := fun d hd =>
    (List.mem_append.1 hd).elim (h.plain d) (hblanks d)
  have hblank {blanks : List Char} (hsub : ∀ d ∈ blanks, isBlank d ∨ isListSeparator d)
      (hblanks : ∀ d ∈ blanks, isListSeparator d = false) : ∀ d ∈ blanks, isBlank d := fun d hd =>
    (hsub d hd).resolve_right (by rw [hblanks d hd]; exact Bool.false_ne_true)
  induction gap using split_induction isListSeparator with
  | last blanks hblanks =>
    obtain rfl : rest = [] := hrest.resolve_right fun ⟨c, hc, hseparator⟩ => by
      rw [hblanks c hc] at hseparator
      cases hseparator
    rw [List.append_nil, parts_of_plain (hplain hblanks), trimmedPieces_entry h (hblank hgap hblanks), parts_nil]
  | more blanks c gap hblanks hc _ =>
    have hfront : Gap blanks := fun d hd => hgap d (List.mem_append_left _ hd)
    have hback : Gap gap := fun d hd => hgap d (List.mem_append_right _ (List.mem_cons_of_mem c hd))
    have hshape : s.toList ++ (blanks ++ c :: gap) ++ rest = s.toList ++ blanks ++ c :: (gap ++ rest) := by simp
    rw [hshape, parts_append_cons (hplain hblanks) hc, trimmedPieces_entry h (hblank hfront hblanks),
      parts_gap_append hback]
    rfl

/-- A text is cut into the entries that it lists. -/
theorem parts_of_lists {entries : List String} {text : List Char} (hentries : ∀ s ∈ entries, Entry s)
    (h : Lists entries text) : parts text = entries.map String.toList := by
  induction h with
  | nil hgap =>
    have hnone := parts_gap_append hgap []
    rwa [List.append_nil] at hnone
  | last s hbefore hafter =>
    have hs := hentries s List.mem_cons_self
    have hone := parts_entry_append hs hafter [] (.inl rfl)
    rw [List.append_nil] at hone
    rw [List.append_assoc, parts_gap_append hbefore, hone]
    rfl
  | cons s hbefore hbetween separated h ih =>
    rw [List.forall_mem_cons] at hentries
    rw [List.append_assoc, List.append_assoc, parts_gap_append hbefore, ← List.append_assoc,
      parts_entry_append hentries.1 hbetween _ (.inr separated), ih hentries.2]
    rfl

theorem list_string {entries : List String} {s : String} (hentries : ∀ s ∈ entries, Entry s)
    (h : Lists entries s.toList) : list (.string s) = entries := by
  have hparts := parts_of_lists hentries h
  rw [← parts_trim] at hparts
  have hlist : list (.string s) = (parts (trim s.toList)).map String.ofList := by
    rw [list, text, String.trimBlank, String.toList_ofList, parts]
    intro items hitems
    cases hitems
  have hback : String.ofList ∘ String.toList = id := funext fun _ => String.ofList_toList
  rw [hlist, hparts, List.map_map, hback, List.map_id]

/-- What is read from a cell that is no array can be written in a text. -/
theorem entry_of_list {v : Value} (hv : ∀ items, v ≠ .array items) : ∀ s ∈ list v, Entry s := by
  intro s hs
  refine ⟨settled_of_list v s hs, ?_⟩
  rw [list] at hs
  · obtain ⟨p, hp, rfl⟩ := List.mem_map.1 hs
    obtain ⟨hmem, -⟩ := List.mem_filter.1 hp
    obtain ⟨piece, hpiece, rfl⟩ := List.mem_map.1 hmem
    intro c hc
    rw [String.toList_ofList] at hc
    refine of_mem_splitOnP isListSeparator _ piece hpiece c ?_
    exact List.dropWhile_sublist _ |>.subset ((trimEnd_isPrefix _).subset hc)
  · exact hv

/-- A list that is written as an array and one that is written as a text are both read as the list. Whatever a cell
holds, what is read from it are texts without white space at their ends, and entries of a text if it is no array. -/
theorem list_written {entries : List String} (h : ∀ s ∈ entries, Entry s) :
    (∀ items, Holds entries items → list (.array items) = entries) ∧
      (∀ text : String, Lists entries text.toList → list (.string text) = entries) ∧
        ∀ v, (∀ s ∈ list v, Settled s) ∧ ((∀ items, v ≠ .array items) → ∀ s ∈ list v, Entry s) :=
  ⟨fun _ => list_array fun s hs => (h s hs).toSettled, fun _ => list_string h,
    fun v => ⟨settled_of_list v, entry_of_list⟩⟩

theorem list_written_of_loose_text : (∀ s ∈ ["Fire", "Water ice"], Entry s) ∧
    list (.array [.string (" " ++ "Fire" ++ "\u00a0"), .null, .string "\n", .array [],
      .string ("" ++ "Water ice" ++ "")]) = ["Fire", "Water ice"] ∧
    list (.string "/ Fire\u00a0,, Water ice\t") = ["Fire", "Water ice"] := by
  have hblank (s : String) (h : s.toList.all isBlank) : ∀ c ∈ s.toList, isBlank c := List.all_eq_true.1 h
  have hentry (s : String) (htrimmed : trim s.toList = s.toList) (hne : s ≠ "")
      (hplain : s.toList.all (!isListSeparator ·)) : Entry s :=
    ⟨⟨htrimmed ▸ trimmed_trim s.toList, hne⟩, fun c hc => by simpa using List.all_eq_true.1 hplain c hc⟩
  have h : ∀ s ∈ ["Fire", "Water ice"], Entry s := by
    rw [List.forall_mem_cons, List.forall_mem_singleton]
    exact ⟨hentry _ (by decide) (by decide) (by decide), hentry _ (by decide) (by decide) (by decide)⟩
  have hitems := Holds.entry " " "Fire" "\u00a0" (hblank _ (by decide)) (hblank _ (by decide))
    (.filler .null (.filler (.blank "\n" (hblank _ (by decide))) (.filler .emptyArray
      (.entry "" "Water ice" "" (hblank _ (by decide)) (hblank _ (by decide)) .nil))))
  have hbefore : Gap ['/', ' '] := by decide
  have hbetween : Gap ['\u00a0', ',', ',', ' '] := by decide
  have hnone : Gap [] := by decide
  have hafter : Gap ['\t'] := by decide
  have htext := Lists.cons "Fire" hbefore hbetween ⟨',', by decide, by decide⟩ (.last "Water ice" hnone hafter)
  exact ⟨h, (list_written h).1 _ hitems, (list_written h).2.1 _ htext⟩

end CardIndex.Cell
