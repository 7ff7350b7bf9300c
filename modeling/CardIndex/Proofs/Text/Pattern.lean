import CardIndex.Proofs.Text.Words

namespace CardIndex.Text

theorem lt_of_isUpper {c : Char} (h : c.isUpper) : c.toNat < 128 := by
  have hrange : c.val ≥ 'A'.val ∧ c.val ≤ 'Z'.val := of_decide_eq_true h
  exact Nat.lt_of_le_of_lt (UInt32.le_iff_toNat_le.1 hrange.2) (by decide)

theorem lt_of_isLower {c : Char} (h : c.isLower) : c.toNat < 128 := by
  have hrange := (Bool.and_eq_true _ _).mp h
  exact Nat.lt_of_le_of_lt (UInt32.le_iff_toNat_le.1 (of_decide_eq_true hrange.2)) (by decide)

theorem toLower_of_not_isUpper {c : Char} (h : ¬ c.isUpper) : c.toLower = c := by
  unfold Char.toLower
  rw [dif_neg]
  exact fun hrange => h (decide_eq_true hrange)

/-- A small letter of ASCII stands for itself and its capital, s also for the long s and k for the Kelvin sign. -/
theorem fold_eq_iff (c : Char) {l : Char} (hl : l.isLower) :
    fold c = l ↔ c = l ∨ c = l.toUpper ∨ (l = 's' ∧ c = '\u017F') ∨ (l = 'k' ∧ c = '\u212A') := by
  constructor
  · unfold fold
    split
    · rintro rfl
      rename_i hs
      exact .inr (.inr (.inl ⟨rfl, hs⟩))
    split
    · rintro rfl
      rename_i hk
      exact .inr (.inr (.inr ⟨rfl, hk⟩))
    rintro rfl
    by_cases hupper : c.isUpper
    · have hback : ∀ n < 128, (Char.ofNat n).isUpper → Char.ofNat n = (Char.ofNat n).toLower.toUpper := by
        decide +kernel
      have hc := hback c.toNat (lt_of_isUpper hupper)
      rw [Char.ofNat_toNat] at hc
      exact .inr (.inl (hc hupper))
    · exact .inl (toLower_of_not_isUpper hupper).symm
  · have hfold : ∀ n < 128, (Char.ofNat n).isLower →
        fold (Char.ofNat n) = Char.ofNat n ∧ fold (Char.ofNat n).toUpper = Char.ofNat n := by
      decide +kernel
    have hc := hfold l.toNat (lt_of_isLower hl)
    rw [Char.ofNat_toNat] at hc
    obtain ⟨hself, hcapital⟩ := hc hl
    rintro (rfl | rfl | ⟨rfl, rfl⟩ | ⟨rfl, rfl⟩)
    · exact hself
    · exact hcapital
    · rfl
    · rfl

theorem isWordChar_of_isWordChar_fold {c : Char} (h : isWordChar (fold c)) : isWordChar c := by
  unfold fold at h
  split at h
  · rename_i hs
    rw [hs]
    decide +kernel
  split at h
  · rename_i hk
    rw [hk]
    decide +kernel
  by_cases hupper : c.isUpper
  · have hletters : ∀ n < 128, (Char.ofNat n).isUpper → isWordChar (Char.ofNat n) := by decide +kernel
    have hc := hletters c.toNat (lt_of_isUpper hupper)
    rw [Char.ofNat_toNat] at hc
    exact hc hupper
  · rwa [toLower_of_not_isUpper hupper] at h

/-- A longest run of word characters in a text. -/
def IsRun (text w : List Char) : Prop :=
  w ≠ [] ∧ (∀ c ∈ w, isWordChar c) ∧ ∃ before after, text = before ++ w ++ after ∧
    (∀ c ∈ before.getLast?, isWordChar c = false) ∧ ∀ c ∈ after.head?, isWordChar c = false

/-- A run stays one behind more text, unless that text ends in the middle of a word. -/
theorem IsRun.behind {text w : List Char} (h : IsRun text w) (front : List Char)
    (hfront : (∀ c ∈ front.getLast?, isWordChar c = false) ∨ ∀ c ∈ text.head?, isWordChar c = false) :
    IsRun (front ++ text) w := by
  obtain ⟨hne, hall, before, after, rfl, hbefore, hafter⟩ := h
  refine ⟨hne, hall, front ++ before, after, by simp, ?_, hafter⟩
  intro c hc
  rw [List.getLast?_append] at hc
  cases hlast : before.getLast? with
  | some d =>
    rw [hlast, Option.some_or] at hc
    exact hbefore c (hlast ▸ hc)
  | none =>
    rw [hlast, Option.none_or] at hc
    rcases hfront with hfront | htext
    · exact hfront c hc
    · obtain ⟨d, w, rfl⟩ := List.exists_cons_of_ne_nil hne
      obtain rfl := List.getLast?_eq_none_iff.1 hlast
      have hd := htext d rfl
      rw [hall d List.mem_cons_self] at hd
      cases hd

theorem isRun_of_mem_words {cs w : List Char} (h : w ∈ words cs) : IsRun cs w := by
  match cs, h with
  | c :: cs, h =>
    by_cases hc : isWordChar c
    · have hrest := head_dropWhile isWordChar cs
      have htext : (c :: cs).takeWhile isWordChar ++ cs.dropWhile isWordChar = c :: cs := by
        rw [← List.dropWhile_cons_of_pos hc, List.takeWhile_append_dropWhile]
      rw [words_cons_of_isWordChar cs hc, List.mem_cons] at h
      rcases h with rfl | h
      · refine ⟨by simp [hc], List.all_eq_true.1 List.all_takeWhile, [], cs.dropWhile isWordChar, ?_, by simp, hrest⟩
        rw [List.nil_append, htext]
      · have hrun := (isRun_of_mem_words h).behind ((c :: cs).takeWhile isWordChar) (.inr hrest)
        rwa [htext] at hrun
    · have hnot := Bool.not_eq_true _ ▸ hc
      rw [words_cons_of_not cs hnot] at h
      exact (isRun_of_mem_words h).behind [c] (.inl (by simpa using hnot))
termination_by cs.length
decreasing_by
  · exact Nat.lt_succ_of_le (List.dropWhile_suffix isWordChar).length_le
  · exact Nat.lt_succ_self _

/-- The words of a text are its longest runs of word characters. -/
theorem mem_words_iff (cs w : List Char) : w ∈ words cs ↔ IsRun cs w := by
  constructor
  · exact isRun_of_mem_words
  · rintro ⟨hne, hall, before, after, rfl, hbefore, hafter⟩
    have hrun : w ∈ words (w ++ after) := by
      rw [words_append_of_run after hne hall hafter]
      exact List.mem_cons_self
    rw [List.append_assoc]
    rcases List.eq_nil_or_concat before with rfl | ⟨front, c, rfl⟩
    · exact hrun
    · have hc : isWordChar c = false := hbefore c (by simp)
      rw [List.concat_eq_append, List.append_assoc, List.singleton_append, words_append_cons front _ hc]
      exact List.mem_append_right _ hrun

/-- A place in a text is an edge of a word if one of its neighbours belongs to a word and the other does not. Beyond
the ends of a text there are no words. -/
def IsEdge (before after : List Char) : Prop :=
  before.getLast?.any isWordChar ≠ after.head?.any isWordChar

/-- How a word may be spelled. -/
inductive Spelling
  | letters (text : String)
  | followed (first second : Spelling)
  | either (one other : Spelling)
  | perhaps (spelling : Spelling)
deriving DecidableEq

namespace Spelling

/-- A part of a text is spelled so, each letter taken for what the reading makes of it. -/
def Reads (reading : Char → Char) : Spelling → List Char → Prop
  | letters text, part => part.map reading = text.toList
  | followed first second, part => ∃ x y, part = x ++ y ∧ first.Reads reading x ∧ second.Reads reading y
  | either one other, part => one.Reads reading part ∨ other.Reads reading part
  | perhaps spelling, part => part = [] ∨ spelling.Reads reading part

/-- All texts that are spelled so. -/
def forms : Spelling → List String
  | letters text => [text]
  | followed first second => first.forms.flatMap fun x => second.forms.map fun y => x ++ y
  | either one other => one.forms ++ other.forms
  | perhaps spelling => "" :: spelling.forms

theorem reads_iff (reading : Char → Char) (s : Spelling) (part : List Char) :
    s.Reads reading part ↔ ∃ form ∈ s.forms, part.map reading = form.toList := by
  induction s generalizing part with
  | letters text => simp [Reads, forms]
  | followed first second ihFirst ihSecond =>
    simp only [Reads, forms, ihFirst, ihSecond, List.mem_flatMap, List.mem_map]
    constructor
    · rintro ⟨x, y, rfl, ⟨form, hform, hx⟩, form', hform', hy⟩
      exact ⟨form ++ form', ⟨form, hform, form', hform', rfl⟩, by rw [List.map_append, hx, hy, String.toList_append]⟩
    · rintro ⟨-, ⟨form, hform, form', hform', rfl⟩, hpart⟩
      rw [String.toList_append] at hpart
      obtain ⟨x, y, rfl, hx, hy⟩ := List.map_eq_append_iff.1 hpart
      exact ⟨x, y, rfl, ⟨form, hform, hx⟩, form', hform', hy⟩
  | either one other ihOne ihOther =>
    simp only [Reads, forms, ihOne, ihOther, List.mem_append, or_and_right, exists_or]
  | perhaps spelling ih =>
    simp [Reads, forms, ih]

end Spelling

/-- Something to look for in a text. -/
structure Pattern where
  spelling : Spelling
  /-- Case is ignored. -/
  folded : Bool
  /-- It has to end where a word ends. -/
  whole : Bool
deriving DecidableEq

namespace Pattern

def reading (p : Pattern) : Char → Char := if p.folded then fold else id

/-- Some part of the text begins at an edge of a word, is spelled so and, if it has to, ends at an edge. -/
def FoundIn (p : Pattern) (text : List Char) : Prop :=
  ∃ before part after, text = before ++ part ++ after ∧ IsEdge before (part ++ after) ∧
    p.spelling.Reads p.reading part ∧ (p.whole → IsEdge (before ++ part) after)

/-- A word counts if it is one of the forms, or only begins with one where that is enough. -/
def Counts (p : Pattern) (w : List Char) : Prop :=
  ∃ form ∈ p.spelling.forms, form.toList <+: w.map p.reading ∧ (p.whole → w.map p.reading = form.toList)

instance (p : Pattern) (w : List Char) : Decidable (p.Counts w) :=
  inferInstanceAs (Decidable (∃ form ∈ p.spelling.forms, _))

/-- Some word of the text counts. -/
def SaidIn (p : Pattern) (text : List Char) : Prop := ∃ w ∈ words text, p.Counts w

instance (p : Pattern) (text : List Char) : Decidable (p.SaidIn text) :=
  inferInstanceAs (Decidable (∃ w ∈ words text, p.Counts w))

/-- There are letters in each of the forms, and nothing else. -/
def Lettered (p : Pattern) : Prop :=
  ∀ form ∈ p.spelling.forms, form ≠ "" ∧ ∀ c ∈ form.toList, isWordChar c

-- Decided over the letters of the forms; over all characters it would take too long.
instance (p : Pattern) : Decidable p.Lettered :=
  decidable_of_iff (p.spelling.forms.all fun form => decide (form ≠ "") && form.toList.all isWordChar)
    (by simp [Lettered])

theorem isWordChar_of_reading (p : Pattern) {c : Char} (h : isWordChar (p.reading c)) : isWordChar c := by
  unfold reading at h
  split at h
  · exact isWordChar_of_isWordChar_fold h
  · exact h

/-- What is spelled like a form begins with a letter and goes on with letters. -/
theorem Lettered.part {p : Pattern} (hp : p.Lettered) {part : List Char} {form : String}
    (hform : form ∈ p.spelling.forms) (hpart : part.map p.reading = form.toList) :
    part ≠ [] ∧ ∀ c ∈ part, isWordChar c := by
  obtain ⟨hne, hletters⟩ := hp form hform
  constructor
  · rintro rfl
    exact hne (String.toList_eq_nil_iff.1 hpart.symm)
  · intro c hc
    exact p.isWordChar_of_reading (hletters _ (hpart ▸ List.mem_map_of_mem hc))

/-- In front of a letter there is an edge where no word goes on. -/
theorem isEdge_of_head {before part : List Char} (hne : part ≠ []) (hall : ∀ c ∈ part, isWordChar c)
    (after : List Char) : IsEdge before (part ++ after) ↔ ∀ c ∈ before.getLast?, isWordChar c = false := by
  obtain ⟨d, part, rfl⟩ := List.exists_cons_of_ne_nil hne
  have hd := hall d List.mem_cons_self
  unfold IsEdge
  cases before.getLast? with
  | none => simp [hd]
  | some c => simp [hd]

/-- Behind a letter there is an edge where no word goes on. -/
theorem isEdge_of_last {part after : List Char} (hne : part ≠ []) (hall : ∀ c ∈ part, isWordChar c)
    (before : List Char) : IsEdge (before ++ part) after ↔ ∀ c ∈ after.head?, isWordChar c = false := by
  have hlast := hall _ (List.getLast_mem hne)
  unfold IsEdge
  rw [List.getLast?_append, List.getLast?_eq_some_getLast hne, Option.some_or]
  cases after.head? with
  | none => simp [hlast]
  | some c => simp [hlast]

theorem saidIn_of_foundIn {p : Pattern} (hp : p.Lettered) {text : List Char} (h : p.FoundIn text) :
    p.SaidIn text := by
  obtain ⟨before, part, after, rfl, hbegins, hreads, hends⟩ := h
  obtain ⟨form, hform, hpart⟩ := (p.spelling.reads_iff _ _).1 hreads
  obtain ⟨hne, hall⟩ := hp.part hform hpart
  have hbefore := (isEdge_of_head hne hall after).1 hbegins
  -- The word goes on behind the part as far as there are letters; if it has to end there, it is the part.
  refine ⟨part ++ after.takeWhile isWordChar, (mem_words_iff _ _).2 ⟨by simp [hne], ?_, before,
    after.dropWhile isWordChar, ?_, hbefore, head_dropWhile isWordChar after⟩, form, hform, ?_, ?_⟩
  · rw [List.forall_mem_append]
    exact ⟨hall, List.all_eq_true.1 List.all_takeWhile⟩
  · rw [List.append_assoc, List.append_assoc, List.append_assoc, List.takeWhile_append_dropWhile]
  · rw [List.map_append, hpart]
    exact List.prefix_append _ _
  · intro hwhole
    have hafter := (isEdge_of_last hne hall before).1 (hends hwhole)
    rw [takeWhile_of_head hafter, List.append_nil, hpart]

theorem foundIn_of_saidIn {p : Pattern} (hp : p.Lettered) {text : List Char} (h : p.SaidIn text) :
    p.FoundIn text := by
  obtain ⟨w, hw, form, hform, hupTo, hends⟩ := h
  obtain ⟨hne, hall, before, after, rfl, hbefore, hafter⟩ := (mem_words_iff _ _).1 hw
  obtain ⟨more, hmore⟩ := hupTo
  obtain ⟨part, rest, rfl, hpart, hrest⟩ := List.map_eq_append_iff.1 hmore.symm
  obtain ⟨hpartNe, hpartAll⟩ := hp.part hform hpart
  refine ⟨before, part, rest ++ after, by simp, (isEdge_of_head hpartNe hpartAll _).2 hbefore,
    (p.spelling.reads_iff _ _).2 ⟨form, hform, hpart⟩, fun hwhole => ?_⟩
  have hall' := hends hwhole
  rw [List.map_append, hpart, List.append_right_eq_self, List.map_eq_nil_iff] at hall'
  rw [isEdge_of_last hpartNe hpartAll, hall', List.nil_append]
  exact hafter

/-- A pattern that is made of letters is found in a text where one of the words counts. -/
theorem foundIn_iff {p : Pattern} (hp : p.Lettered) (text : List Char) : p.FoundIn text ↔ p.SaidIn text :=
  ⟨saidIn_of_foundIn hp, foundIn_of_saidIn hp⟩

end Pattern

end CardIndex.Text
