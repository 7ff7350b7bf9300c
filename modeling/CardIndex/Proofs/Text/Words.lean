import CardIndex.Proofs.Text.Trimming
import CardIndex.Text.Word

namespace CardIndex.Text

/-- The code points of white space. -/
def blankCodes : List Nat := [
  0x9, 0xA, 0xB, 0xC, 0xD, 0x20, 0x85, 0xA0, 0x1680, 0x2000, 0x2001, 0x2002, 0x2003, 0x2004, 0x2005, 0x2006,
  0x2007, 0x2008, 0x2009, 0x200A, 0x2028, 0x2029, 0x202F, 0x205F, 0x3000]

theorem toNat_mem_of_isBlank {c : Char} (h : isBlank c) : c.toNat ∈ blankCodes := by
  simp only [isBlank, Bool.or_eq_true, Bool.and_eq_true, decide_eq_true_eq] at h
  simp only [blankCodes, List.mem_cons, List.not_mem_nil, or_false]
  omega

/-- White space belongs to no word. -/
theorem isWordChar_of_isBlank {c : Char} (h : isBlank c) : isWordChar c = false := by
  have hcodes : ∀ n ∈ blankCodes, isWordChar (Char.ofNat n) = false := by decide +kernel
  have hc := hcodes c.toNat (toNat_mem_of_isBlank h)
  rwa [Char.ofNat_toNat] at hc

@[simp] theorem words_nil : words [] = [] := rfl

/-- A text can be cut at a character that belongs to no word. -/
theorem words_append_cons (cs ds : List Char) {c : Char} (h : isWordChar c = false) :
    words (cs ++ c :: ds) = words cs ++ words ds := by
  have hc : (!isWordChar c) = true := by simp [h]
  unfold words
  rw [List.splitOnP_append_cons cs ds hc, List.filter_append]

theorem words_cons_of_not {c : Char} (cs : List Char) (h : isWordChar c = false) : words (c :: cs) = words cs :=
  words_append_cons [] cs h

/-- A run of word characters that ends with the text or before another character is a word. -/
theorem words_append_of_run {w : List Char} (rest : List Char) (hw : w ≠ []) (hall : ∀ c ∈ w, isWordChar c)
    (hrest : ∀ c ∈ rest.head?, isWordChar c = false) : words (w ++ rest) = w :: words rest := by
  have hsep : ∀ c ∈ w, (!isWordChar c) = false := fun c hc => by simp [hall c hc]
  cases rest with
  | nil =>
    unfold words
    rw [List.append_nil, List.splitOnP_eq_singleton hsep]
    simp [hw]
  | cons c rest =>
    have hc : isWordChar c = false := hrest c rfl
    rw [words_cons_of_not rest hc]
    unfold words
    rw [List.splitOnP_append_cons_of_forall_mem hsep c (by simp [hc]), List.filter_cons_of_pos (by simp [hw])]

theorem words_cons_of_isWordChar {c : Char} (cs : List Char) (h : isWordChar c) :
    words (c :: cs) = (c :: cs).takeWhile isWordChar :: words (cs.dropWhile isWordChar) := by
  have hrun : ∀ d ∈ (c :: cs).takeWhile isWordChar, isWordChar d := List.all_eq_true.1 List.all_takeWhile
  have hwords := words_append_of_run (cs.dropWhile isWordChar) (by simp [h]) hrun (head_dropWhile isWordChar cs)
  rwa [← List.dropWhile_cons_of_pos h, List.takeWhile_append_dropWhile, List.dropWhile_cons_of_pos h] at hwords

theorem words_append_of_blank (cs blanks : List Char) (h : ∀ c ∈ blanks, isBlank c) :
    words (cs ++ blanks) = words cs := by
  induction blanks generalizing cs with
  | nil => rw [List.append_nil]
  | cons c blanks ih =>
    have hblanks := ih [] fun d hd => h d (List.mem_cons_of_mem c hd)
    rw [List.nil_append, words_nil] at hblanks
    rw [words_append_cons cs blanks (isWordChar_of_isBlank (h c List.mem_cons_self)), hblanks, List.append_nil]

theorem words_trimStart (cs : List Char) : words (trimStart cs) = words cs := by
  unfold trimStart
  induction cs with
  | nil => rfl
  | cons c cs ih =>
    by_cases hc : isBlank c
    · rw [List.dropWhile_cons_of_pos hc, ih, words_cons_of_not cs (isWordChar_of_isBlank hc)]
    · rw [List.dropWhile_cons_of_neg hc]

theorem words_trimEnd (cs : List Char) : words (trimEnd cs) = words cs := by
  obtain ⟨blanks, hsplit, hblanks⟩ := trimEnd_append cs
  have hwords := words_append_of_blank (trimEnd cs) blanks hblanks
  rw [← hsplit] at hwords
  exact hwords.symm

/-- Trimming takes no word off and cuts none short. -/
theorem words_trim (cs : List Char) : words (trim cs) = words cs := by
  rw [trim, words_trimEnd, words_trimStart]

theorem words_trimmedPieces (pieces : List (List Char)) :
    (trimmedPieces pieces).flatMap words = pieces.flatMap words := by
  induction pieces with
  | nil => rfl
  | cons p pieces ih =>
    unfold trimmedPieces at ih ⊢
    rw [List.map_cons, List.flatMap_cons, ← ih, ← words_trim p]
    by_cases hp : trim p = []
    · rw [List.filter_cons_of_neg (by simp [hp]), hp, words_nil, List.nil_append]
    · rw [List.filter_cons_of_pos (by simp [hp]), List.flatMap_cons]

/-- The scan inside of a word goes on behind it. -/
theorem anyWord_eq (meets : List Char → Bool) (hmeets : meets [] = false) (inWord : Bool) (cs : List Char) :
    anyWord meets inWord cs = (words (if inWord then cs.dropWhile isWordChar else cs)).any meets := by
  induction cs generalizing inWord with
  | nil => cases inWord <;> rfl
  | cons c cs ih =>
    rw [anyWord, ih]
    by_cases hc : isWordChar c
    · cases inWord with
      | true => simp [wordAt, hmeets, hc]
      | false => simp [wordAt, hc, words_cons_of_isWordChar cs hc]
    · have hnot := Bool.not_eq_true _ ▸ hc
      have hwords := words_cons_of_not cs hnot
      cases inWord <;> simp [wordAt, hmeets, hnot, hwords]

theorem anyWord_iff (meets : List Char → Bool) (hmeets : meets [] = false) (cs : List Char) :
    anyWord meets false cs ↔ ∃ w ∈ words cs, meets w := by
  rw [anyWord_eq meets hmeets, List.any_eq_true]
  rfl

/-- The empty word is no form. -/
theorem any_form_nil {forms : List String} (h : "" ∉ forms) : (forms.any fun form => form.toList = []) = false := by
  rw [List.any_eq_false]
  intro form hform hnil
  have hempty : form = "" := String.toList_eq_nil_iff.1 (of_decide_eq_true hnil)
  exact h (hempty ▸ hform)

theorem hasWord_iff {forms : List String} (hforms : "" ∉ forms) (cs : List Char) :
    hasWord forms cs ↔ ∃ form ∈ forms, form.toList ∈ words cs := by
  rw [hasWord, anyWord_iff _ (any_form_nil hforms)]
  simp only [List.any_eq_true, decide_eq_true_eq]
  constructor
  · rintro ⟨w, hw, form, hform, rfl⟩
    exact ⟨form, hform, hw⟩
  · rintro ⟨form, hform, hw⟩
    exact ⟨_, hw, form, hform, rfl⟩

theorem hasFoldedWord_iff {forms : List String} (hforms : "" ∉ forms) (cs : List Char) :
    hasFoldedWord forms cs ↔ ∃ form ∈ forms, ∃ w ∈ words cs, w.map fold = form.toList := by
  have hmeets : (forms.any fun form => form.toList = [].map fold) = false := any_form_nil hforms
  rw [hasFoldedWord, anyWord_iff (fun w => forms.any fun form => form.toList = w.map fold) hmeets]
  simp only [List.any_eq_true, decide_eq_true_eq]
  constructor
  · rintro ⟨w, hw, form, hform, heq⟩
    exact ⟨form, hform, w, hw, heq.symm⟩
  · rintro ⟨form, hform, w, hw, heq⟩
    exact ⟨w, hw, form, hform, heq.symm⟩

theorem hasFoldedStem_iff {stem : String} (hstem : stem ≠ "") (cs : List Char) :
    hasFoldedStem stem cs ↔ ∃ w ∈ words cs, stem.toList <+: w.map fold := by
  have hmeets : stem.toList.isPrefixOf ([].map fold) = false := by
    rw [← Bool.not_eq_true, List.isPrefixOf_iff_prefix, List.map_nil, List.prefix_nil, String.toList_eq_nil_iff]
    exact hstem
  rw [hasFoldedStem, anyWord_iff (fun w => stem.toList.isPrefixOf (w.map fold)) hmeets]
  simp only [List.isPrefixOf_iff_prefix]

end CardIndex.Text
