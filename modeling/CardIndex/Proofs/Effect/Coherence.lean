import CardIndex.Effect.Activation
import CardIndex.Proofs.Distinct
import CardIndex.Proofs.Effect.Clauses

namespace CardIndex.Effect

open Text

/-- The text as a whole has a stem where one of its clauses has it. -/
theorem hasFoldedStem_iff_clause (effect : String) {stem : String} (hstem : stem ≠ "") :
    hasFoldedStem stem effect.toList ↔ ∃ text ∈ clauseTexts effect, hasFoldedStem stem text.toList := by
  simp only [hasFoldedStem_iff hstem]
  exact (exists_mem_clauseTexts effect _).symm

theorem hasWord_iff_clause (effect : String) {forms : List String} (hforms : "" ∉ forms) :
    hasWord forms effect.toList ↔ ∃ text ∈ clauseTexts effect, hasWord forms text.toList := by
  have hp (cs : List Char) : hasWord forms cs ↔ ∃ w ∈ words cs, ∃ form ∈ forms, form.toList = w := by
    rw [hasWord_iff hforms]
    constructor
    · rintro ⟨form, hform, hw⟩
      exact ⟨_, hw, form, hform, rfl⟩
    · rintro ⟨w, hw, form, hform, rfl⟩
      exact ⟨form, hform, hw⟩
  simp only [hp]
  exact (exists_mem_clauseTexts effect _).symm

/-- A word that counts in some forms starts with their stem. -/
theorem hasFoldedStem_of_hasFoldedWord {forms : List String} {stem : String} (hforms : "" ∉ forms)
    (hstem : stem ≠ "") (h : ∀ form ∈ forms, stem.toList <+: form.toList) {cs : List Char}
    (hcs : hasFoldedWord forms cs) : hasFoldedStem stem cs := by
  obtain ⟨form, hform, w, hw, heq⟩ := (hasFoldedWord_iff hforms cs).1 hcs
  exact (hasFoldedStem_iff hstem cs).2 ⟨w, hw, heq ▸ h form hform⟩

/-- Letter by letter is one of the cases that count where case is ignored. -/
theorem hasFoldedWord_of_hasWord {word form : String} (hword : word ≠ "") (hform : form ≠ "")
    (h : word.toList.map fold = form.toList) {cs : List Char} (hcs : hasWord [word] cs) :
    hasFoldedWord [form] cs := by
  obtain ⟨w, hw, hmem⟩ := (hasWord_iff (by simpa using hword.symm) cs).1 hcs
  obtain rfl := List.mem_singleton.1 hw
  exact (hasFoldedWord_iff (by simpa using hform.symm) cs).2 ⟨form, List.mem_singleton_self form, _, hmem, h⟩

/-- Without colors and tags the keywords are those of the effect. -/
theorem mem_keywords (effect keyword : String) :
    keyword ∈ keywords [] [] effect ↔ keyword ∈ detectedKeywords effect := by
  rw [keywords, mem_distinct]
  simp

/-- Where a trigger word begins, a phrase does, and one that has begun comes to an end. -/
theorem phrases_ne_nil (phrase : List Char) (inWord : Bool) (cs : List Char) :
    phrases (some phrase) inWord cs ≠ [] := by
  induction cs generalizing phrase inWord with
  | nil => exact List.cons_ne_nil _ _
  | cons c cs ih =>
    unfold phrases
    dsimp only
    split
    · exact List.cons_ne_nil _ _
    · exact ih _ _

theorem phrases_ne_nil_of_anyWord (inWord : Bool) (cs : List Char)
    (h : anyWord (fun w => triggerWords.any (·.toList = w)) inWord cs) : phrases none inWord cs ≠ [] := by
  induction cs generalizing inWord with
  | nil => cases h
  | cons c cs ih =>
    unfold phrases
    dsimp only
    split
    · exact phrases_ne_nil _ _ _
    · rename_i hnone
      rw [anyWord, Bool.or_eq_true] at h
      rcases h with h | h
      · exact absurd h hnone
      · exact ih _ h

/-- An effect that says When has a phrase from there on. -/
theorem triggers_ne_nil {effect : String} (h : hasWord whenWords effect.toList) : triggers effect ≠ [] := by
  have hsome : hasWord triggerWords effect.toList := by
    obtain ⟨form, hform, hw⟩ := (hasWord_iff (by decide) _).1 h
    have hmore : ∀ form ∈ whenWords, form ∈ triggerWords := by decide
    exact (hasWord_iff (by decide) _).2 ⟨form, hmore form hform, hw⟩
  unfold triggers
  rw [Ne, List.map_eq_nil_iff]
  exact phrases_ne_nil_of_anyWord false effect.toList hsome

section

variable (card effect : String)

theorem tagged_trigger : Tagged (clauses card effect) "trigger" ↔ hasWord whenWords effect.toList := by
  rw [tagged_clauses, hasWord_iff_clause effect (by decide)]
  simp [clauseTags, mem_labels]

theorem tagged_opening {tag word : String} (hword : word ≠ "")
    (htag : ∀ text, tag ∈ clauseTags text → opensWith word text.toList)
    (h : Tagged (clauses card effect) tag) : hasWord [word] effect.toList := by
  have hforms : "" ∉ [word] := by simpa using hword.symm
  obtain ⟨text, htext, hmem⟩ := (tagged_clauses card effect tag).1 h
  have hopens := mem_words_of_opensWith hword (htag text hmem)
  refine (hasWord_iff_clause effect hforms).2 ⟨text, htext, ?_⟩
  exact (hasWord_iff hforms _).2 ⟨word, List.mem_singleton_self word, hopens⟩

theorem tagged_action (h : Tagged (clauses card effect) "action") : hasWord ["ACTION"] effect.toList := by
  refine tagged_opening card effect (by decide) (fun text htag => ?_) h
  simpa [clauseTags, mem_labels] using htag

theorem tagged_reaction (h : Tagged (clauses card effect) "reaction") : hasWord ["REACTION"] effect.toList := by
  refine tagged_opening card effect (by decide) (fun text htag => ?_) h
  simpa [clauseTags, mem_labels] using htag

theorem tagged_stem {tag stem : String} (hstem : stem ≠ "")
    (htag : ∀ text, tag ∈ clauseTags text ↔ hasFoldedStem stem text.toList) :
    Tagged (clauses card effect) tag ↔ hasFoldedStem stem effect.toList := by
  rw [tagged_clauses, hasFoldedStem_iff_clause effect hstem]
  simp only [htag]

end

theorem timing_cases (effect : String) :
    (hasWord ["ACTION"] effect.toList ∧ timing effect = .action) ∨
    (¬ hasWord ["ACTION"] effect.toList ∧ hasWord ["REACTION"] effect.toList ∧ timing effect = .reaction) ∨
    (¬ hasWord ["ACTION"] effect.toList ∧ ¬ hasWord ["REACTION"] effect.toList ∧
      hasWord whenWords effect.toList ∧ timing effect = .triggered) ∨
    (¬ hasWord ["ACTION"] effect.toList ∧ ¬ hasWord ["REACTION"] effect.toList ∧
      ¬ hasWord whenWords effect.toList ∧ timing effect = .passive) := by
  by_cases haction : hasWord ["ACTION"] effect.toList
  · simp [timing, haction]
  by_cases hreaction : hasWord ["REACTION"] effect.toList
  · simp [timing, haction, hreaction]
  by_cases hwhen : hasWord whenWords effect.toList
  · simp [timing, haction, hreaction, hwhen]
  · simp [timing, haction, hreaction, hwhen]

theorem timing_eq_action_iff (effect : String) : timing effect = .action ↔ hasWord ["ACTION"] effect.toList := by
  rcases timing_cases effect with h | h | h | h <;> simp [h]

theorem timing_eq_reaction_iff (effect : String) :
    timing effect = .reaction ↔ ¬ hasWord ["ACTION"] effect.toList ∧ hasWord ["REACTION"] effect.toList := by
  rcases timing_cases effect with h | h | h | h <;> simp [h]

theorem timing_eq_triggered_iff (effect : String) :
    timing effect = .triggered ↔ ¬ hasWord ["ACTION"] effect.toList ∧ ¬ hasWord ["REACTION"] effect.toList ∧
      hasWord whenWords effect.toList := by
  rcases timing_cases effect with h | h | h | h <;> simp [h]

theorem timing_eq_passive_iff (effect : String) :
    timing effect = .passive ↔ ¬ hasWord ["ACTION"] effect.toList ∧ ¬ hasWord ["REACTION"] effect.toList ∧
      ¬ hasWord whenWords effect.toList := by
  rcases timing_cases effect with h | h | h | h <;> simp [h]

/-- A keyword with one cue is there where the cue holds. -/
theorem mem_keywords_iff (effect keyword : String) (cue : Cue)
    (h : ∀ c, (keyword, c) ∈ keywordCues ↔ c = cue) :
    keyword ∈ keywords [] [] effect ↔ cue.holds effect.toList := by
  rw [mem_keywords, detectedKeywords, mem_labels]
  constructor
  · rintro ⟨c, hc, hholds⟩
    exact (h c).1 hc ▸ hholds
  · intro hholds
    exact ⟨cue, (h cue).2 rfl, hholds⟩

/-- All forms of a verb start with the stem of its keyword. -/
theorem mem_keywords_of_mem_actions (effect verb keyword stem : String) (hstem : stem ≠ "")
    (hkeyword : (keyword, .stem stem) ∈ keywordCues)
    (hforms : ∀ entry ∈ verbForms, entry.1 = verb → "" ∉ entry.2 ∧ ∀ form ∈ entry.2, stem.toList <+: form.toList)
    (h : verb ∈ actions effect) : keyword ∈ keywords [] [] effect := by
  obtain ⟨forms, hentry, hholds⟩ := (mem_labels _ _ _).1 h
  obtain ⟨hempty, hstems⟩ := hforms _ hentry rfl
  have hcue := hasFoldedStem_of_hasFoldedWord hempty hstem hstems hholds
  exact (mem_keywords effect keyword).2 ((mem_labels _ _ _).2 ⟨.stem stem, hkeyword, hcue⟩)

/-- A text with the form of a verb that is the verb itself. -/
theorem exists_mem_actions (effect : String) {verbs : List String} (hverbs : "" ∉ verbs)
    (h : ∀ verb ∈ verbs, ∃ entry ∈ verbForms, entry.1 = verb ∧ verb ∈ entry.2 ∧ "" ∉ entry.2)
    (hword : hasFoldedWord verbs effect.toList) : ∃ verb ∈ verbs, verb ∈ actions effect := by
  obtain ⟨verb, hverb, w, hw, heq⟩ := (hasFoldedWord_iff hverbs _).1 hword
  obtain ⟨⟨label, forms⟩, hentry, rfl, hform, hforms⟩ := h verb hverb
  refine ⟨label, hverb, (mem_labels _ _ _).2 ⟨forms, hentry, ?_⟩⟩
  exact (hasFoldedWord_iff hforms _).2 ⟨label, hform, w, hw, heq⟩

/-- What the clauses, the activation and the keywords of an effect have to say of each other. -/
structure Coherent (effect : String) (rules : List Clause) (activation : Activation) (keywords : List String) :
    Prop where
  trigger : Tagged rules "trigger" ↔
    "When".toList ∈ words effect.toList ∨ "Whenever".toList ∈ words effect.toList
  action : Tagged rules "action" → activation.timing = .action
  reaction : Tagged rules "reaction" → activation.timing = .action ∨ activation.timing = .reaction
  triggered : activation.timing = .triggered →
    Tagged rules "trigger" ∧ ¬ Tagged rules "action" ∧ ¬ Tagged rules "reaction" ∧ activation.triggers ≠ []
  passive : activation.timing = .passive →
    ¬ Tagged rules "action" ∧ ¬ Tagged rules "reaction" ∧ ¬ Tagged rules "trigger"
  buff : "Buff" ∈ keywords ↔ Tagged rules "buff"
  kill : "Kill" ∈ keywords ↔ Tagged rules "removal"
  heal : "Heal" ∈ keywords ↔ Tagged rules "healing"
  actionKeyword : activation.timing = .action → "Action" ∈ keywords
  reactionKeyword : activation.timing = .reaction → "Reaction" ∈ keywords
  stateful : activation.stateful = true →
    ∃ verb ∈ ["buff", "heal", "transform", "summon"], verb ∈ activation.actions
  verbs : ∀ pair ∈ [("kill", "Kill"), ("buff", "Buff"), ("heal", "Heal"), ("conquer", "Conquer")],
    pair.1 ∈ activation.actions → pair.2 ∈ keywords

/-- Wherever a text is cut and trimmed into clauses, they say what the text says. -/
theorem effect_coherent (card effect : String) :
    Coherent effect (clauses card effect) (activation effect) (keywords [] [] effect) := by
  have htrigger := tagged_trigger card effect
  have haction := tagged_action card effect
  have hreaction := tagged_reaction card effect
  constructor
  case trigger =>
    rw [htrigger, hasWord_iff (by decide)]
    simp [whenWords]
  case action =>
    intro h
    exact (timing_eq_action_iff effect).2 (haction h)
  case reaction =>
    intro h
    by_cases hword : hasWord ["ACTION"] effect.toList
    · exact .inl ((timing_eq_action_iff effect).2 hword)
    · exact .inr ((timing_eq_reaction_iff effect).2 ⟨hword, hreaction h⟩)
  case triggered =>
    intro h
    obtain ⟨hnoAction, hnoReaction, hwhen⟩ := (timing_eq_triggered_iff effect).1 h
    exact ⟨htrigger.2 hwhen, fun ht => hnoAction (haction ht), fun ht => hnoReaction (hreaction ht),
      triggers_ne_nil hwhen⟩
  case passive =>
    intro h
    obtain ⟨hnoAction, hnoReaction, hnoWhen⟩ := (timing_eq_passive_iff effect).1 h
    exact ⟨fun ht => hnoAction (haction ht), fun ht => hnoReaction (hreaction ht), fun ht => hnoWhen (htrigger.1 ht)⟩
  case buff =>
    rw [mem_keywords_iff effect "Buff" (.stem "buff") (by simp [keywordCues])]
    exact (tagged_stem card effect (by decide) (by simp [clauseTags, mem_labels])).symm
  case kill =>
    rw [mem_keywords_iff effect "Kill" (.stem "kill") (by simp [keywordCues])]
    exact (tagged_stem card effect (by decide) (by simp [clauseTags, mem_labels])).symm
  case heal =>
    rw [mem_keywords_iff effect "Heal" (.stem "heal") (by simp [keywordCues])]
    exact (tagged_stem card effect (by decide) (by simp [clauseTags, mem_labels])).symm
  case actionKeyword =>
    intro h
    have hword := (timing_eq_action_iff effect).1 h
    rw [mem_keywords_iff effect "Action" (.word ["action"]) (by simp [keywordCues])]
    exact hasFoldedWord_of_hasWord (by decide) (by decide) (by decide) hword
  case reactionKeyword =>
    intro h
    have hword := ((timing_eq_reaction_iff effect).1 h).2
    rw [mem_keywords_iff effect "Reaction" (.word ["reaction"]) (by simp [keywordCues])]
    exact hasFoldedWord_of_hasWord (by decide) (by decide) (by decide) hword
  case stateful =>
    intro h
    exact exists_mem_actions effect (by decide) (by decide) h
  case verbs =>
    intro pair hpair h
    simp only [List.mem_cons, List.not_mem_nil, or_false] at hpair
    rcases hpair with rfl | rfl | rfl | rfl
    · exact mem_keywords_of_mem_actions effect "kill" "Kill" "kill" (by decide) (by simp [keywordCues]) (by decide) h
    · exact mem_keywords_of_mem_actions effect "buff" "Buff" "buff" (by decide) (by simp [keywordCues]) (by decide) h
    · exact mem_keywords_of_mem_actions effect "heal" "Heal" "heal" (by decide) (by simp [keywordCues]) (by decide) h
    · exact mem_keywords_of_mem_actions effect "conquer" "Conquer" "conquer" (by decide) (by simp [keywordCues])
        (by decide) h

end CardIndex.Effect
