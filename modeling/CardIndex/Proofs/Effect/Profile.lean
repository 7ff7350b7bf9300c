import CardIndex.Proofs.Effect.Coherence
import CardIndex.Proofs.Text.Pattern

namespace CardIndex.Effect

open Text

/-- A word by itself, whatever its case. -/
def wordPattern (spelling : Spelling) : Pattern := ⟨spelling, true, true⟩

/-- The start of a word, whatever its case. -/
def stemPattern (stem : String) : Pattern := ⟨.letters stem, true, false⟩

/-- A word by itself, letter by letter. -/
def markerPattern (spelling : Spelling) : Pattern := ⟨spelling, false, true⟩

/-- A verb with none or one of three endings. -/
def inflected (verb one two three : String) : Spelling :=
  .followed (.letters verb) (.perhaps (.either (.letters one) (.either (.letters two) (.letters three))))

def regular (verb : String) : Spelling := inflected verb "s" "ed" "ing"

def verbPatterns : List (String × Pattern) := [
  ("kill", wordPattern (regular "kill")),
  ("buff", wordPattern (regular "buff")),
  ("heal", wordPattern (regular "heal")),
  ("draw", wordPattern (.either (inflected "draw" "s" "n" "ing") (.letters "drew"))),
  ("summon", wordPattern (regular "summon")),
  ("discard", wordPattern (regular "discard")),
  ("conquer", wordPattern (regular "conquer")),
  ("transform", wordPattern (regular "transform")),
  ("recover", wordPattern (regular "recover"))]

def keywordPatterns : List (String × Pattern) := [
  ("Action", wordPattern (.letters "action")),
  ("Reaction", wordPattern (.letters "reaction")),
  ("Showdown", stemPattern "showdown"),
  ("Conquer", stemPattern "conquer"),
  ("Gear", wordPattern (.letters "gear")),
  ("Rune", wordPattern (.followed (.letters "rune") (.perhaps (.letters "s")))),
  ("Heal", stemPattern "heal"),
  ("Buff", stemPattern "buff"),
  ("Draw", stemPattern "draw"),
  ("Kill", stemPattern "kill")]

def targetPattern : Pattern := wordPattern (.followed (.letters "target") (.perhaps (.letters "s")))

def statePattern : Pattern :=
  wordPattern (.either (.letters "buff") (.either (.letters "heal")
    (.either (.letters "transform") (.letters "summon"))))

def actionPattern : Pattern := markerPattern (.letters "ACTION")

def reactionPattern : Pattern := markerPattern (.letters "REACTION")

def whenPattern : Pattern := markerPattern (.followed (.letters "When") (.perhaps (.letters "ever")))

/-- All that is looked for in an effect text. -/
def patterns : List Pattern :=
  [targetPattern, statePattern, actionPattern, reactionPattern, whenPattern] ++ verbPatterns.map (·.2) ++
    keywordPatterns.map (·.2)

theorem lettered_patterns : ∀ p ∈ patterns, p.Lettered := by decide +kernel

theorem empty_notMem_forms {p : Pattern} (hp : p.Lettered) : "" ∉ p.spelling.forms :=
  fun hmem => (hp _ hmem).1 rfl

theorem counts_of_whole {p : Pattern} (hwhole : p.whole) (w : List Char) :
    p.Counts w ↔ ∃ form ∈ p.spelling.forms, w.map p.reading = form.toList := by
  constructor
  · rintro ⟨form, hform, -, heq⟩
    exact ⟨form, hform, heq hwhole⟩
  · rintro ⟨form, hform, heq⟩
    exact ⟨form, hform, heq ▸ List.prefix_rfl, fun _ => heq⟩

theorem hasFoldedWord_forms {spelling : Spelling} (h : (wordPattern spelling).Lettered) (cs : List Char) :
    hasFoldedWord spelling.forms cs ↔ (wordPattern spelling).SaidIn cs := by
  have hforms : "" ∉ spelling.forms := empty_notMem_forms h
  rw [hasFoldedWord_iff hforms]
  simp only [Pattern.SaidIn, counts_of_whole (show (wordPattern spelling).whole from rfl)]
  constructor
  · rintro ⟨form, hform, w, hw, heq⟩
    exact ⟨w, hw, form, hform, heq⟩
  · rintro ⟨w, hw, form, hform, heq⟩
    exact ⟨form, hform, w, hw, heq⟩

theorem hasWord_forms {spelling : Spelling} (h : (markerPattern spelling).Lettered) (cs : List Char) :
    hasWord spelling.forms cs ↔ (markerPattern spelling).SaidIn cs := by
  have hforms : "" ∉ spelling.forms := empty_notMem_forms h
  rw [hasWord_iff hforms]
  simp only [Pattern.SaidIn, counts_of_whole (show (markerPattern spelling).whole from rfl)]
  have hreading (w : List Char) : w.map (markerPattern spelling).reading = w := List.map_id w
  constructor
  · rintro ⟨form, hform, hw⟩
    exact ⟨_, hw, form, hform, hreading _⟩
  · rintro ⟨w, hw, form, hform, heq⟩
    exact ⟨form, hform, heq ▸ (hreading w).symm ▸ hw⟩

theorem hasFoldedStem_letters {stem : String} (h : (stemPattern stem).Lettered) (cs : List Char) :
    hasFoldedStem stem cs ↔ (stemPattern stem).SaidIn cs := by
  have hstem := h stem (List.mem_singleton_self stem)
  rw [hasFoldedStem_iff hstem.1]
  have hcounts (w : List Char) : (stemPattern stem).Counts w ↔ stem.toList <+: w.map fold := by
    constructor
    · rintro ⟨form, hform, hupTo, -⟩
      obtain rfl := List.mem_singleton.1 hform
      exact hupTo
    · intro hupTo
      exact ⟨stem, List.mem_singleton_self stem, hupTo, nofun⟩
  simp only [Pattern.SaidIn, hcounts]

/-- What a keyword's pattern is in the table of cues. -/
def cueOf (p : Pattern) : Cue := if p.whole then .word p.spelling.forms else .stem (p.spelling.forms.headD "")

/-- A pattern for keywords is one for words or for stems, and nothing else. -/
theorem cueOf_holds {p : Pattern} (hp : p.Lettered)
    (h : p = wordPattern p.spelling ∨ p = stemPattern (p.spelling.forms.headD "")) (text : List Char) :
    (cueOf p).holds text = decide (p.SaidIn text) := by
  rw [Bool.eq_iff_iff, decide_eq_true_eq]
  rcases h with h | h
  · rw [h] at hp ⊢
    exact hasFoldedWord_forms hp text
  · rw [h] at hp ⊢
    exact hasFoldedStem_letters hp text

/-- A table and the same table with other entries have the same labels, if the entries hold together. -/
theorem labels_map {α β : Type} {holds : α → Bool} {holds' : β → Bool} (f : β → α) (table : List (String × β))
    (h : ∀ entry ∈ table, holds (f entry.2) = holds' entry.2) :
    labels holds (table.map fun entry => (entry.1, f entry.2)) = labels holds' table := by
  unfold labels
  rw [List.filter_map, List.map_map]
  have hsame : table.filter ((fun entry => holds entry.2) ∘ fun entry => (entry.1, f entry.2)) =
      table.filter fun entry => holds' entry.2 := List.filter_congr h
  rw [hsame]
  rfl

theorem actions_eq (effect : String) :
    actions effect = labels (fun p => decide (p.SaidIn effect.toList)) verbPatterns := by
  have hforms : verbForms = verbPatterns.map fun entry => (entry.1, entry.2.spelling.forms) := by decide
  have hword : ∀ entry ∈ verbPatterns, entry.2 ∈ patterns ∧ entry.2 = wordPattern entry.2.spelling := by decide
  rw [actions, hforms]
  refine labels_map (fun p : Pattern => p.spelling.forms) verbPatterns fun entry hentry => ?_
  obtain ⟨hmem, heq⟩ := hword entry hentry
  have hp := lettered_patterns _ hmem
  rw [heq] at hp
  rw [Bool.eq_iff_iff, decide_eq_true_eq, hasFoldedWord_forms hp, ← heq]

theorem detectedKeywords_eq (effect : String) :
    detectedKeywords effect = labels (fun p => decide (p.SaidIn effect.toList)) keywordPatterns := by
  have hcues : keywordCues = keywordPatterns.map fun entry => (entry.1, cueOf entry.2) := rfl
  have hkind : ∀ entry ∈ keywordPatterns, entry.2 ∈ patterns ∧
      (entry.2 = wordPattern entry.2.spelling ∨ entry.2 = stemPattern (entry.2.spelling.forms.headD "")) := by
    decide
  rw [detectedKeywords, hcues]
  refine labels_map cueOf keywordPatterns fun entry hentry => ?_
  obtain ⟨hmem, heq⟩ := hkind entry hentry
  exact cueOf_holds (lettered_patterns _ hmem) heq effect.toList

theorem requiresTarget_iff (effect : String) : requiresTarget effect ↔ targetPattern.SaidIn effect.toList :=
  hasFoldedWord_forms (lettered_patterns targetPattern (by decide)) effect.toList

theorem isStateful_iff (effect : String) : isStateful effect ↔ statePattern.SaidIn effect.toList :=
  hasFoldedWord_forms (lettered_patterns statePattern (by decide)) effect.toList

theorem timing_eq (effect : String) :
    timing effect =
      if actionPattern.SaidIn effect.toList then .action
      else if reactionPattern.SaidIn effect.toList then .reaction
      else if whenPattern.SaidIn effect.toList then .triggered
      else .passive := by
  have haction : hasWord ["ACTION"] effect.toList ↔ actionPattern.SaidIn effect.toList :=
    hasWord_forms (lettered_patterns actionPattern (by decide)) effect.toList
  have hreaction : hasWord ["REACTION"] effect.toList ↔ reactionPattern.SaidIn effect.toList :=
    hasWord_forms (lettered_patterns reactionPattern (by decide)) effect.toList
  have hwhen : hasWord whenWords effect.toList ↔ whenPattern.SaidIn effect.toList :=
    hasWord_forms (lettered_patterns whenPattern (by decide)) effect.toList
  simp only [timing, haction, hreaction, hwhen]

/-- How an effect is read off its words. -/
structure ReadOffWords (colors tags : List String) (effect : String) : Prop where
  /-- The words are the longest runs of word characters. -/
  words : ∀ w, w ∈ words effect.toList ↔ IsRun effect.toList w
  /-- To find something between edges of words is to find a word that is one of its forms or begins with one. -/
  found : ∀ p ∈ patterns, p.FoundIn effect.toList ↔ p.SaidIn effect.toList
  /-- Where case is ignored a small letter stands for itself, its capital and what else Unicode folds onto it. -/
  folding : ∀ c l : Char, l.isLower →
    (fold c = l ↔ c = l ∨ c = l.toUpper ∨ (l = 's' ∧ c = '\u017F') ∨ (l = 'k' ∧ c = '\u212A'))
  actions : actions effect = labels (fun p => decide (p.SaidIn effect.toList)) verbPatterns
  target : requiresTarget effect ↔ targetPattern.SaidIn effect.toList
  stateful : isStateful effect ↔ statePattern.SaidIn effect.toList
  timing : timing effect =
    if actionPattern.SaidIn effect.toList then .action
    else if reactionPattern.SaidIn effect.toList then .reaction
    else if whenPattern.SaidIn effect.toList then .triggered
    else .passive
  detected : detectedKeywords effect = labels (fun p => decide (p.SaidIn effect.toList)) keywordPatterns
  keywords : keywords colors tags effect =
    (colors.filter (· ≠ "") ++ tags.filter (· ≠ "") ++ detectedKeywords effect).eraseDups
  /-- With the same words in it another effect differs in its phrases and in the windows for reactions at most. -/
  same : ∀ other, (∀ w, w ∈ Text.words other.toList ↔ w ∈ Text.words effect.toList) →
    Effect.keywords colors tags other = Effect.keywords colors tags effect ∧
    activation other =
      { activation effect with triggers := triggers other, reactionWindows := reactionWindows other }

theorem saidIn_congr {text text' : List Char} (h : ∀ w, w ∈ words text' ↔ w ∈ words text) (p : Pattern) :
    p.SaidIn text' ↔ p.SaidIn text := by
  unfold Pattern.SaidIn
  simp only [h]

/-- Keywords, verbs, timing and what else an effect is taken for are decided by the words in it. -/
theorem read_off_words (colors tags : List String) (effect : String) : ReadOffWords colors tags effect := by
  have hkeywords (effect : String) : keywords colors tags effect =
      (colors.filter (· ≠ "") ++ tags.filter (· ≠ "") ++ detectedKeywords effect).eraseDups := by
    rw [keywords, distinct_eq_eraseDups, List.filter_append]
  constructor
  case words => exact mem_words_iff effect.toList
  case found => exact fun p hp => Pattern.foundIn_iff (lettered_patterns p hp) effect.toList
  case folding => exact fun c l hl => fold_eq_iff c hl
  case actions => exact actions_eq effect
  case target => exact requiresTarget_iff effect
  case stateful => exact isStateful_iff effect
  case timing => exact timing_eq effect
  case detected => exact detectedKeywords_eq effect
  case keywords => exact hkeywords effect
  case same =>
    intro other hwords
    have hsaid := saidIn_congr hwords
    have hdetected : detectedKeywords other = detectedKeywords effect := by
      simp only [detectedKeywords_eq, hsaid]
    have htarget : requiresTarget other = requiresTarget effect := by
      rw [Bool.eq_iff_iff, requiresTarget_iff, requiresTarget_iff, hsaid]
    have hstateful : isStateful other = isStateful effect := by
      rw [Bool.eq_iff_iff, isStateful_iff, isStateful_iff, hsaid]
    have hactions : actions other = actions effect := by simp only [actions_eq, hsaid]
    have htiming : timing other = timing effect := by simp only [timing_eq, hsaid]
    refine ⟨?_, ?_⟩
    · rw [hkeywords, hkeywords, hdetected]
    · simp only [activation, hactions, htarget, hstateful, htiming]

/-- The Kelvin sign is a k, and a verb is not found inside of another word. -/
example : actions "\u212Aills no skill." = ["kill"] := by decide +kernel

end CardIndex.Effect
