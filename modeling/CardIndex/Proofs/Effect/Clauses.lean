import CardIndex.Effect.Clauses
import CardIndex.Proofs.Text.Words

namespace CardIndex.Effect

theorem fragments_ne_nil (cs : List Char) : fragments cs ≠ [] := by
  cases cs with
  | nil => exact List.cons_ne_nil _ _
  | cons c cs =>
    unfold fragments
    split
    · exact List.cons_ne_nil _ _
    · dsimp only
      split
      · exact List.cons_ne_nil _ _
      · split
        · exact List.cons_ne_nil _ _
        · exact List.cons_ne_nil _ _

theorem isWordChar_of_endsSentence {c : Char} (h : endsSentence c) : Text.isWordChar c = false := by
  simp only [endsSentence, Bool.or_eq_true, decide_eq_true_eq] at h
  rcases h with (rfl | rfl) | rfl
  · decide
  · decide
  · decide

/-- What of a word is in front of the text goes on in the first fragment. -/
theorem words_append_fragments (front cs first : List Char) (others : List (List Char))
    (h : fragments cs = first :: others) :
    Text.words (front ++ first) ++ others.flatMap Text.words = Text.words (front ++ cs) := by
  induction cs generalizing front first others with
  | nil =>
    obtain ⟨rfl, rfl⟩ := List.cons.inj h
    rw [List.flatMap_nil, List.append_nil]
  | cons c cs ih =>
    obtain ⟨f, fs, hf⟩ := List.exists_cons_of_ne_nil (fragments_ne_nil cs)
    have hall := ih [] f fs hf
    rw [List.nil_append, List.nil_append, ← List.flatMap_cons] at hall
    unfold fragments at h
    split at h
    · rename_i hc
      obtain ⟨rfl, rfl⟩ := List.cons.inj h
      subst hc
      rw [hf, hall, List.append_nil, Text.words_append_cons front cs (by decide)]
    · simp only [hf] at h
      split at h
      · rename_i hcut
        obtain ⟨rfl, rfl⟩ := List.cons.inj h
        rw [Bool.and_eq_true] at hcut
        have hc := isWordChar_of_endsSentence hcut.1
        rw [hall, Text.words_append_cons front [] hc, Text.words_append_cons front cs hc, Text.words_nil,
          List.append_nil]
      · obtain ⟨rfl, rfl⟩ := List.cons.inj h
        have hmore := ih (front ++ [c]) f fs hf
        rwa [List.append_assoc, List.append_assoc, List.singleton_append, List.singleton_append] at hmore

theorem words_fragments (cs : List Char) : (fragments cs).flatMap Text.words = Text.words cs := by
  obtain ⟨first, others, h⟩ := List.exists_cons_of_ne_nil (fragments_ne_nil cs)
  have hall := words_append_fragments [] cs first others h
  rw [List.nil_append, List.nil_append] at hall
  rw [h, List.flatMap_cons, hall]

/-- The words of the clauses are the words of the effect. -/
theorem words_clauseTexts (effect : String) :
    (clauseTexts effect).flatMap (fun text => Text.words text.toList) = Text.words effect.toList := by
  unfold clauseTexts
  rw [List.flatMap_map]
  simp only [String.toList_ofList]
  rw [Text.words_trimmedPieces, words_fragments]

theorem exists_mem_clauseTexts (effect : String) (p : List Char → Prop) :
    (∃ text ∈ clauseTexts effect, ∃ w ∈ Text.words text.toList, p w) ↔ ∃ w ∈ Text.words effect.toList, p w := by
  rw [← words_clauseTexts]
  constructor
  · rintro ⟨text, htext, w, hw, hp⟩
    exact ⟨w, List.mem_flatMap.2 ⟨text, htext, hw⟩, hp⟩
  · rintro ⟨w, hw, hp⟩
    obtain ⟨text, htext, hw⟩ := List.mem_flatMap.1 hw
    exact ⟨text, htext, w, hw, hp⟩

theorem mem_labels {α : Type} (holds : α → Bool) (table : List (String × α)) (label : String) :
    label ∈ labels holds table ↔ ∃ a, (label, a) ∈ table ∧ holds a := by
  unfold labels
  rw [List.mem_map]
  constructor
  · rintro ⟨⟨l, a⟩, hmem, rfl⟩
    obtain ⟨htable, ha⟩ := List.mem_filter.1 hmem
    exact ⟨a, htable, ha⟩
  · rintro ⟨a, htable, ha⟩
    exact ⟨(label, a), List.mem_filter.2 ⟨htable, ha⟩, rfl⟩

/-- Some clause carries the tag. -/
def Tagged (rules : List Clause) (tag : String) : Prop := ∃ clause ∈ rules, tag ∈ clause.tags

theorem tagged_clauses (card effect tag : String) :
    Tagged (clauses card effect) tag ↔ ∃ text ∈ clauseTexts effect, tag ∈ clauseTags text := by
  unfold Tagged clauses
  constructor
  · rintro ⟨clause, hclause, htag⟩
    obtain ⟨i, hi, rfl⟩ := List.mem_mapIdx.1 hclause
    dsimp only at htag
    exact ⟨_, List.getElem_mem hi, htag⟩
  · rintro ⟨text, htext, htag⟩
    obtain ⟨i, hi, rfl⟩ := List.getElem_of_mem htext
    refine ⟨_, List.mem_mapIdx.2 ⟨i, hi, rfl⟩, ?_⟩
    dsimp only
    exact htag

/-- A clause that opens with a word has it. -/
theorem mem_words_of_opensWith {word : String} {cs : List Char} (hword : word ≠ "") (h : opensWith word cs) :
    word.toList ∈ Text.words cs := by
  have hrun : cs.takeWhile Text.isWordChar = word.toList := of_decide_eq_true h
  cases cs with
  | nil => exact absurd (String.toList_eq_nil_iff.1 hrun.symm) hword
  | cons c cs =>
    by_cases hc : Text.isWordChar c
    · rw [Text.words_cons_of_isWordChar cs hc, hrun]
      exact List.mem_cons_self
    · rw [List.takeWhile_cons_of_neg hc] at hrun
      exact absurd (String.toList_eq_nil_iff.1 hrun.symm) hword

end CardIndex.Effect
