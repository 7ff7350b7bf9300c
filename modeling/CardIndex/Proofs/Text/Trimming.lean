import CardIndex.Text.Blank
import Mathlib.Data.List.TakeWhile

namespace CardIndex.Text

/-- White space stands at neither end. -/
structure Trimmed (cs : List Char) : Prop where
  head : ∀ c ∈ cs.head?, isBlank c = false
  last : ∀ c ∈ cs.getLast?, isBlank c = false

theorem trimmed_nil : Trimmed [] := by
  constructor
  · intro c hc
    cases hc
  · intro c hc
    cases hc

theorem trimmed_of_forall {cs : List Char} (h : ∀ c ∈ cs, isBlank c = false) : Trimmed cs :=
  ⟨fun c hc => h c (List.mem_of_head? hc), fun c hc => h c (List.mem_of_getLast? hc)⟩

theorem trimmed_of_all {cs : List Char} (h : cs.all (!isBlank ·)) : Trimmed cs :=
  trimmed_of_forall fun c hc => by simpa using List.all_eq_true.1 h c hc

/-- Whatever two trimmed texts are joined by, the ends stay ends. -/
theorem Trimmed.append_cons {cs ds : List Char} {c : Char} (hcs : Trimmed cs) (hc : isBlank c = false)
    (hds : Trimmed ds) : Trimmed (cs ++ c :: ds) := by
  constructor
  · intro d hd
    cases cs with
    | nil => exact Option.some.inj hd ▸ hc
    | cons e es => exact hcs.head d hd
  · intro d hd
    rw [List.getLast?_append, List.getLast?_cons, Option.some_or] at hd
    cases hlast : ds.getLast? with
    | none =>
      rw [hlast] at hd
      exact Option.some.inj hd ▸ hc
    | some e =>
      rw [hlast] at hd
      exact hds.last d (hlast.trans hd)

theorem isBlank_of_isDigit (c : Char) (h : c.isDigit) : isBlank c = false := by
  have hrange : 48 ≤ c.toNat ∧ c.toNat ≤ 57 := Char.isDigit_iff_toNat.1 h
  simp [isBlank]
  omega

theorem trimStart_of_head (cs : List Char) (h : ∀ c ∈ cs.head?, isBlank c = false) : trimStart cs = cs := by
  cases cs with
  | nil => rfl
  | cons c cs => simp [trimStart, h c rfl]

theorem Trimmed.trim {cs : List Char} (h : Trimmed cs) : trim cs = cs := by
  have hlast : ∀ c ∈ cs.reverse.head?, isBlank c = false := by
    rw [List.head?_reverse]
    exact h.last
  have hreverse : cs.reverse.dropWhile isBlank = cs.reverse := trimStart_of_head cs.reverse hlast
  rw [Text.trim, trimStart_of_head cs h.head, trimEnd, hreverse, List.reverse_reverse]

theorem head_dropWhile (p : Char → Bool) (cs : List Char) : ∀ c ∈ (cs.dropWhile p).head?, p c = false := by
  intro c hc
  have hnot := List.head?_dropWhile_not p cs
  rw [hc] at hnot
  simpa using hnot

theorem takeWhile_of_head {p : Char → Bool} {cs : List Char} (h : ∀ c ∈ cs.head?, p c = false) :
    cs.takeWhile p = [] := by
  cases cs with
  | nil => rfl
  | cons c cs => exact List.takeWhile_cons_of_neg (by simp [h c rfl])

theorem trimEnd_isPrefix (cs : List Char) : trimEnd cs <+: cs := by
  have hsuffix := List.dropWhile_suffix isBlank (l := cs.reverse)
  rw [← List.reverse_prefix, List.reverse_reverse] at hsuffix
  exact hsuffix

theorem trimmed_trim (cs : List Char) : Trimmed (trim cs) := by
  constructor
  · intro c hc
    obtain ⟨rest, hrest⟩ := trimEnd_isPrefix (trimStart cs)
    apply head_dropWhile isBlank cs
    have hhead : (trimStart cs).head? = some c := by
      rw [← hrest, List.head?_append, ← trim, hc]
      rfl
    exact hhead
  · intro c hc
    rw [trim, trimEnd, List.getLast?_reverse] at hc
    exact head_dropWhile isBlank _ c hc

theorem of_mem_trimmedPieces {pieces : List (List Char)} {p : List Char} (h : p ∈ trimmedPieces pieces) :
    p ≠ [] ∧ Trimmed p := by
  obtain ⟨hmem, hne⟩ := List.mem_filter.1 h
  obtain ⟨piece, -, rfl⟩ := List.mem_map.1 hmem
  exact ⟨of_decide_eq_true hne, trimmed_trim piece⟩

theorem trimEnd_append (cs : List Char) : ∃ blanks, cs = trimEnd cs ++ blanks ∧ ∀ c ∈ blanks, isBlank c := by
  refine ⟨(cs.reverse.takeWhile isBlank).reverse, ?_, ?_⟩
  · rw [trimEnd, ← List.reverse_append, List.takeWhile_append_dropWhile, List.reverse_reverse]
  · intro c hc
    exact List.all_eq_true.1 List.all_takeWhile c (List.mem_reverse.1 hc)

theorem trimStart_append (cs : List Char) : ∃ blanks, cs = blanks ++ trimStart cs ∧ ∀ c ∈ blanks, isBlank c :=
  ⟨cs.takeWhile isBlank, List.takeWhile_append_dropWhile.symm, List.all_eq_true.1 List.all_takeWhile⟩

theorem trimEnd_append_blank (cs : List Char) {blanks : List Char} (h : ∀ c ∈ blanks, isBlank c) :
    trimEnd (cs ++ blanks) = trimEnd cs := by
  rw [trimEnd, List.reverse_append, List.dropWhile_append_of_pos fun c hc => h c (List.mem_reverse.1 hc), trimEnd]

theorem trim_blank_append (cs : List Char) {blanks : List Char} (h : ∀ c ∈ blanks, isBlank c) :
    trim (blanks ++ cs) = trim cs := by
  rw [trim, trimStart, List.dropWhile_append_of_pos h, trim, trimStart]

theorem trim_append_blank (cs : List Char) {blanks : List Char} (h : ∀ c ∈ blanks, isBlank c) :
    trim (cs ++ blanks) = trim cs := by
  rw [trim, trimStart, List.dropWhile_append, trim, trimStart]
  split
  · rename_i hnil
    rw [List.dropWhile_eq_nil_iff.2 h, List.isEmpty_iff.1 hnil]
  · exact trimEnd_append_blank _ h

end CardIndex.Text
