import CardIndex.Effect.Activation
import CardIndex.Proofs.Text.Pattern
import CardIndex.Proofs.Text.Splitting
import CardIndex.Proofs.Text.Trimming
import Mathlib.Data.List.Basic
import Mathlib.Data.List.Pairwise

namespace CardIndex.Effect

open Text

/-- The word between the two parts of a text is a trigger word and stands by itself. -/
structure Trigger (before word after : List Char) : Prop where
  form : ∃ form ∈ ["When", "Whenever", "After", "Before", "While", "During"], form.toList = word
  begins : IsEdge before (word ++ after)
  ends : IsEdge (before ++ word) after

/-- Behind the first part of a text a trigger word stands by itself. -/
def TriggerAt (before rest : List Char) : Prop := ∃ word after, rest = word ++ after ∧ Trigger before word after

theorem lettered_triggerWords : ∀ form ∈ triggerWords, form.toList ≠ [] ∧ ∀ c ∈ form.toList, isWordChar c := by
  have h : ∀ form ∈ triggerWords, form.toList ≠ [] ∧ form.toList.all isWordChar := by decide
  intro form hform
  obtain ⟨hne, hall⟩ := h form hform
  exact ⟨hne, List.all_eq_true.1 hall⟩

theorem Trigger.ne_nil {before word after : List Char} (h : Trigger before word after) : word ≠ [] := by
  obtain ⟨form, hform, rfl⟩ := h.form
  exact (lettered_triggerWords form hform).1

theorem Trigger.lettered {before word after : List Char} (h : Trigger before word after) :
    ∀ c ∈ word, isWordChar c := by
  obtain ⟨form, hform, rfl⟩ := h.form
  exact (lettered_triggerWords form hform).2

/-- A trigger word stands by itself where no word goes on, neither in front nor behind. -/
theorem trigger_iff {before word after : List Char} :
    Trigger before word after ↔ (∃ form ∈ triggerWords, form.toList = word) ∧
      (∀ c ∈ before.getLast?, isWordChar c = false) ∧ ∀ c ∈ after.head?, isWordChar c = false := by
  constructor
  · intro h
    exact ⟨h.form, (Pattern.isEdge_of_head h.ne_nil h.lettered after).1 h.begins,
      (Pattern.isEdge_of_last h.ne_nil h.lettered before).1 h.ends⟩
  · rintro ⟨hword, hbefore, hafter⟩
    obtain ⟨form, hform, rfl⟩ := hword
    obtain ⟨hne, hall⟩ := lettered_triggerWords form hform
    exact ⟨⟨form, hform, rfl⟩, (Pattern.isEdge_of_head hne hall after).2 hbefore,
      (Pattern.isEdge_of_last hne hall before).2 hafter⟩

/-- The trigger words that stand by themselves are the words that are trigger words. -/
theorem exists_trigger_iff (text : List Char) :
    (∃ before word after, text = before ++ word ++ after ∧ Trigger before word after) ↔
      ∃ form ∈ triggerWords, form.toList ∈ words text := by
  constructor
  · rintro ⟨before, word, after, htext, h⟩
    obtain ⟨⟨form, hform, rfl⟩, hbefore, hafter⟩ := trigger_iff.1 h
    exact ⟨form, hform, (mem_words_iff _ _).2 ⟨h.ne_nil, h.lettered, before, after, htext, hbefore, hafter⟩⟩
  · rintro ⟨form, hform, hmem⟩
    obtain ⟨-, -, before, after, htext, hbefore, hafter⟩ := (mem_words_iff _ _).1 hmem
    exact ⟨before, form.toList, after, htext, trigger_iff.2 ⟨⟨form, hform, rfl⟩, hbefore, hafter⟩⟩

/-- The scan sees a trigger word where one stands by itself. -/
theorem opensPhrase_iff (before rest : List Char) :
    opensPhrase (before.getLast?.any isWordChar) rest ↔ TriggerAt before rest := by
  unfold opensPhrase TriggerAt
  simp only [List.any_eq_true, decide_eq_true_eq]
  constructor
  · rintro ⟨form, hform, hword⟩
    obtain ⟨hne, -⟩ := lettered_triggerWords form hform
    have hfirst : before.getLast?.any isWordChar = false := by
      rw [← Bool.not_eq_true]
      intro hin
      rw [wordAt, if_pos hin] at hword
      exact hne hword
    have hrun : rest.takeWhile isWordChar = form.toList := by
      rw [hword, wordAt, hfirst]
      rfl
    refine ⟨form.toList, rest.dropWhile isWordChar, ?_,
      trigger_iff.2 ⟨⟨form, hform, rfl⟩, ?_, head_dropWhile isWordChar rest⟩⟩
    · rw [← hrun, List.takeWhile_append_dropWhile]
    · intro c hc
      rw [Option.mem_def.1 hc, Option.any_some] at hfirst
      exact hfirst
  · rintro ⟨word, after, rfl, h⟩
    obtain ⟨⟨form, hform, rfl⟩, hbefore, hafter⟩ := trigger_iff.1 h
    refine ⟨form, hform, ?_⟩
    have hfirst : before.getLast?.any isWordChar = false := by
      cases hlast : before.getLast? with
      | none => rfl
      | some c => exact hbefore c hlast
    rw [hfirst, wordAt, if_neg Bool.false_ne_true, List.takeWhile_append_of_pos h.lettered, takeWhile_of_head hafter,
      List.append_nil]

instance (before rest : List Char) : Decidable (TriggerAt before rest) :=
  decidable_of_iff _ (opensPhrase_iff before rest)

/-- A piece of text from its first trigger word on, if it has one. -/
def phrase? (piece : List Char) : Option (List Char) :=
  ((List.range piece.length).find? fun i => TriggerAt (piece.take i) (piece.drop i)).map piece.drop

/-- The same for what follows the start of a piece. -/
def phraseBehind? (before rest : List Char) : Option (List Char) :=
  ((List.range rest.length).find? fun i => TriggerAt (before ++ rest.take i) (rest.drop i)).map rest.drop

theorem phraseBehind?_cons (before : List Char) (c : Char) (cs : List Char) :
    phraseBehind? before (c :: cs) =
      if TriggerAt before (c :: cs) then some (c :: cs) else phraseBehind? (before ++ [c]) cs := by
  unfold phraseBehind?
  rw [List.length_cons, List.range_succ_eq_map, List.find?_cons]
  by_cases h : TriggerAt before (c :: cs)
  · simp [h]
  · simp [h, List.find?_map, Function.comp_def]

theorem phrase?_eq (piece : List Char) : phrase? piece = phraseBehind? [] piece := by
  simp [phrase?, phraseBehind?]

/-- A phrase is the end of its piece, and no trigger word stands in front of it. -/
theorem of_phrase?_eq_some {piece phrase : List Char} (h : phrase? piece = some phrase) :
    ∃ skipped, piece = skipped ++ phrase ∧ TriggerAt skipped phrase ∧
      ∀ before word after, piece = before ++ word ++ after → Trigger before word after →
        skipped.length ≤ before.length := by
  obtain ⟨i, hfind, rfl⟩ := Option.map_eq_some_iff.1 h
  obtain ⟨hi, hmem, hfirst⟩ := List.find?_range_eq_some.1 hfind
  rw [decide_eq_true_eq] at hi
  rw [List.mem_range] at hmem
  refine ⟨piece.take i, (List.take_append_drop i piece).symm, hi, ?_⟩
  rintro before word after hpiece htrigger
  rw [List.length_take, Nat.min_eq_left (Nat.le_of_lt hmem)]
  by_contra hlt
  have hnot := hfirst before.length (by omega)
  rw [hpiece, List.append_assoc, List.take_left, List.drop_left, Bool.not_eq_true', decide_eq_false_iff_not] at hnot
  exact hnot ⟨word, after, rfl, htrigger⟩

theorem phrase?_eq_none_iff {piece : List Char} :
    phrase? piece = none ↔ ∀ before word after, piece = before ++ word ++ after → ¬ Trigger before word after := by
  rw [phrase?, Option.map_eq_none_iff, List.find?_eq_none]
  simp only [List.mem_range, decide_eq_true_eq]
  constructor
  · rintro h before word after hpiece htrigger
    have hlt : before.length < piece.length := by
      have hpos := List.length_pos_iff.2 htrigger.ne_nil
      rw [hpiece, List.length_append, List.length_append]
      omega
    apply h before.length hlt
    rw [hpiece, List.append_assoc, List.take_left, List.drop_left]
    exact ⟨word, after, rfl, htrigger⟩
  · rintro h i - ⟨word, after, hrest, htrigger⟩
    refine h _ word after ?_ htrigger
    rw [List.append_assoc, ← hrest, List.take_append_drop]

theorem isWordChar_of_endsPhrase {c : Char} (h : endsPhrase c) : isWordChar c = false := by
  rcases (Bool.or_eq_true _ _).mp h with hdot | hsemicolon
  · rw [of_decide_eq_true hdot]
    decide +kernel
  · rw [of_decide_eq_true hsemicolon]
    decide +kernel

/-- No trigger word goes on behind its piece. -/
theorem triggerAt_append (before piece : List Char) {rest : List Char} (hrest : ∀ c ∈ rest.head?, endsPhrase c) :
    TriggerAt before (piece ++ rest) ↔ TriggerAt before piece := by
  have hnone : rest.takeWhile isWordChar = [] :=
    takeWhile_of_head fun c hc => isWordChar_of_endsPhrase (hrest c hc)
  have hrun : (piece ++ rest).takeWhile isWordChar = piece.takeWhile isWordChar := by
    rw [List.takeWhile_append, hnone, List.append_nil]
    split
    · rename_i hlength
      exact ((List.takeWhile_prefix isWordChar).eq_of_length hlength).symm
    · rfl
  rw [← opensPhrase_iff, ← opensPhrase_iff, opensPhrase, opensPhrase, wordAt, wordAt, hrun]

/-- The phrases of what comes behind the first piece. -/
def phrasesBehind : List Char → List (List Char)
  | [] => []
  | _ :: rest => phrases none false rest

/-- A phrase that has begun goes on to the end of its piece. -/
theorem phrases_some (piece : List Char) {rest : List Char} (hpiece : ∀ c ∈ piece, endsPhrase c = false)
    (hrest : ∀ c ∈ rest.head?, endsPhrase c) (begun : List Char) (inWord : Bool) :
    phrases (some begun) inWord (piece ++ rest) = (begun.reverse ++ piece) :: phrasesBehind rest := by
  induction piece generalizing begun inWord with
  | nil =>
    rw [List.append_nil]
    cases rest with
    | nil => rfl
    | cons c rest => rw [List.nil_append, phrases, if_pos (hrest c rfl), phrasesBehind]
  | cons c piece ih =>
    rw [List.forall_mem_cons] at hpiece
    rw [List.cons_append, phrases, if_neg (by simp [hpiece.1]), ih hpiece.2, List.reverse_cons, List.append_assoc,
      List.singleton_append]

theorem phrases_none (before piece : List Char) {rest : List Char} (hpiece : ∀ c ∈ piece, endsPhrase c = false)
    (hrest : ∀ c ∈ rest.head?, endsPhrase c) :
    phrases none (before.getLast?.any isWordChar) (piece ++ rest) =
      (phraseBehind? before piece).toList ++ phrasesBehind rest := by
  induction piece generalizing before with
  | nil =>
    cases rest with
    | nil => rfl
    | cons c rest =>
      have hnot : ¬ TriggerAt before (c :: rest) := by
        rw [← List.nil_append (c :: rest), triggerAt_append before [] hrest]
        rintro ⟨word, after, hword, htrigger⟩
        exact htrigger.ne_nil (List.append_eq_nil_iff.1 hword.symm).1
      rw [← opensPhrase_iff] at hnot
      rw [List.nil_append, phrases, if_neg hnot, isWordChar_of_endsPhrase (hrest c rfl), phrasesBehind]
      rfl
  | cons c piece ih =>
    rw [List.forall_mem_cons] at hpiece
    rw [List.cons_append, phrases, phraseBehind?_cons]
    by_cases h : TriggerAt before (c :: piece)
    · have hopens : opensPhrase (before.getLast?.any isWordChar) (c :: (piece ++ rest)) :=
        (opensPhrase_iff _ _).2 ((triggerAt_append before (c :: piece) hrest).2 h)
      rw [if_pos hopens, if_pos h, phrases_some piece hpiece.2 hrest]
      rfl
    · have hopens : ¬ opensPhrase (before.getLast?.any isWordChar) (c :: (piece ++ rest)) := fun hopens =>
        h ((triggerAt_append before (c :: piece) hrest).1 ((opensPhrase_iff _ _).1 hopens))
      have hbehind := ih (before ++ [c]) hpiece.2
      rw [List.getLast?_concat, Option.any_some] at hbehind
      rw [if_neg hopens, if_neg h, hbehind]

/-- The scan over the whole text finds what each of its pieces has. -/
theorem phrases_eq (text : List Char) : phrases none false text = (text.splitOnP endsPhrase).filterMap phrase? := by
  rw [List.filterMap_eq_flatMap_toList]
  induction text using split_induction endsPhrase with
  | last piece h =>
    have hnil : ∀ d ∈ ([] : List Char).head?, endsPhrase d := by simp
    have hscan := phrases_none [] piece h hnil
    rw [List.append_nil, ← phrase?_eq, phrasesBehind, List.append_nil] at hscan
    rw [List.splitOnP_eq_singleton h, List.flatMap_singleton]
    exact hscan
  | more piece c rest h hc ih =>
    have hhead : ∀ d ∈ (c :: rest).head?, endsPhrase d := fun d hd => Option.some.inj hd ▸ hc
    have hscan := phrases_none [] piece h hhead
    rw [← phrase?_eq, phrasesBehind, ih] at hscan
    rw [List.splitOnP_append_cons_of_forall_mem h c hc, List.flatMap_cons]
    exact hscan

/-- What stands between two places of a text. -/
def between (text : List Char) (span : Nat × Nat) : List Char := (text.take span.2).drop span.1

/-- Between these places stands the word that comes behind the first part of a text. -/
structure Encloses (span : Nat × Nat) (before word : List Char) : Prop where
  front : span.1 ≤ before.length
  back : before.length + word.length ≤ span.2

/-- The phrases stand at these places in a text, one after the other, with all its trigger words in them. -/
structure Placed (text : List Char) (phrases : List (List Char)) (spans : List (Nat × Nat)) : Prop where
  texts : spans.map (between text) = phrases
  within : ∀ span ∈ spans, span.1 < span.2 ∧ span.2 ≤ text.length
  ordered : spans.Pairwise (·.2 ≤ ·.1)
  covers : ∀ before word after, text = before ++ word ++ after → Trigger before word after →
    ∃ span ∈ spans, Encloses span before word

theorem between_append (front part rest : List Char) :
    between (front ++ part ++ rest) (front.length, front.length + part.length) = part := by
  rw [between, ← List.length_append, List.take_left, List.drop_left]

theorem placed_nil {text : List Char}
    (h : ∀ before word after, text = before ++ word ++ after → ¬ Trigger before word after) : Placed text [] [] := by
  constructor
  case texts => rfl
  case within => exact List.forall_mem_nil _
  case ordered => exact List.Pairwise.nil
  case covers => exact fun before word after htext htrigger => absurd htrigger (h before word after htext)

theorem Trigger.visible {before word after : List Char} (h : Trigger before word after) :
    ∀ c ∈ word, isBlank c = false := by
  intro c hc
  rw [← Bool.not_eq_true]
  intro hblank
  have hword := h.lettered c hc
  rw [isWordChar_of_isBlank hblank] at hword
  cases hword

/-- White space at the end of a text has no part of a trigger word in it. -/
theorem Trigger.length_le {before word after text blanks : List Char} (h : Trigger before word after)
    (htext : before ++ word ++ after = text ++ blanks) (hblanks : ∀ c ∈ blanks, isBlank c) :
    before.length + word.length ≤ text.length := by
  rw [← List.length_append]
  rcases List.append_eq_append_iff.1 htext with ⟨more, rfl, -⟩ | ⟨more, hword, rfl⟩
  · exact (List.prefix_append (before ++ word) more).length_le
  · have hmore : more = [] := by
      by_contra hne
      have hlast := congrArg List.getLast? hword
      rw [List.getLast?_append_of_ne_nil _ h.ne_nil, List.getLast?_append_of_ne_nil _ hne,
        List.getLast?_eq_some_getLast hne] at hlast
      have hvisible := h.visible _ (List.mem_of_getLast? hlast)
      rw [hblanks _ (List.mem_append_left _ (List.getLast_mem hne))] at hvisible
      cases hvisible
    have hsame : before ++ word = text := by rw [hword, hmore, List.append_nil]
    exact Nat.le_of_eq (congrArg List.length hsame)

/-- Trimming a phrase leaves its first word and takes nothing but white space off its end. -/
theorem TriggerAt.exists_trim {skipped phrase : List Char} (h : TriggerAt skipped phrase) :
    trim phrase ≠ [] ∧ ∃ blanks, phrase = trim phrase ++ blanks ∧ ∀ c ∈ blanks, isBlank c := by
  obtain ⟨word, after, rfl, htrigger⟩ := h
  obtain ⟨c, cs, rfl⟩ := List.exists_cons_of_ne_nil htrigger.ne_nil
  have hc := htrigger.visible c List.mem_cons_self
  have hhead : ∀ d ∈ (c :: cs ++ after).head?, isBlank d = false := fun d hd => Option.some.inj hd ▸ hc
  have htrim : trim (c :: cs ++ after) = trimEnd (c :: cs ++ after) := by
    rw [trim, trimStart_of_head _ hhead]
  obtain ⟨blanks, hphrase, hblanks⟩ := trimEnd_append (c :: cs ++ after)
  rw [← htrim] at hphrase
  refine ⟨?_, blanks, hphrase, hblanks⟩
  intro hnil
  rw [hnil, List.nil_append] at hphrase
  have hblank := hblanks c (hphrase ▸ List.mem_cons_self)
  rw [hc] at hblank
  cases hblank

theorem exists_placed_piece (piece : List Char) : ∃ spans, Placed piece ((phrase? piece).toList.map trim) spans := by
  cases hphrase : phrase? piece with
  | none => exact ⟨[], placed_nil (phrase?_eq_none_iff.1 hphrase)⟩
  | some phrase =>
    obtain ⟨skipped, hpiece, htrigger, hfirst⟩ := of_phrase?_eq_some hphrase
    obtain ⟨hne, blanks, hblanks⟩ := htrigger.exists_trim
    have hsplit : piece = skipped ++ trim phrase ++ blanks := by
      rw [hpiece, List.append_assoc, ← hblanks.1]
    have hlength := congrArg List.length hsplit
    rw [List.length_append, List.length_append] at hlength
    refine ⟨[(skipped.length, skipped.length + (trim phrase).length)], ?_⟩
    constructor
    case texts =>
      rw [List.map_singleton, hsplit, between_append]
      rfl
    case within =>
      have hpos := List.length_pos_iff.2 hne
      rw [List.forall_mem_singleton]
      exact ⟨by omega, by omega⟩
    case ordered => exact List.pairwise_singleton _ _
    case covers =>
      intro before word after htext h
      have hlast := h.length_le (htext.symm.trans hsplit) hblanks.2
      rw [List.length_append] at hlast
      exact ⟨_, List.mem_singleton_self _, hfirst before word after htext h, hlast⟩

/-- A trigger word stands in front of a separator or behind it. -/
theorem Trigger.split {piece rest before word after : List Char} {c : Char} (hc : isWordChar c = false)
    (htext : before ++ word ++ after = piece ++ c :: rest) (h : Trigger before word after) :
    (∃ more, piece = before ++ word ++ more ∧ Trigger before word more) ∨
      ∃ more, before = piece ++ c :: more ∧ rest = more ++ word ++ after ∧ Trigger more word after := by
  obtain ⟨hform, hbefore, hafter⟩ := trigger_iff.1 h
  have hmem : c ∉ word := by
    intro hmem
    rw [h.lettered c hmem] at hc
    cases hc
  rcases List.append_eq_append_iff.1 htext with ⟨more, hpiece, rfl⟩ | ⟨more, hpiece, hrest⟩
  · refine .inl ⟨more, hpiece, trigger_iff.2 ⟨hform, hbefore, fun d hd => hafter d ?_⟩⟩
    rw [List.head?_append, Option.mem_def.1 hd, Option.some_or, Option.mem_def]
  · cases more with
    | nil =>
      rw [List.append_nil] at hpiece
      exact .inl ⟨[], by rw [hpiece, List.append_nil], trigger_iff.2 ⟨hform, hbefore, by simp⟩⟩
    | cons d more =>
      obtain ⟨rfl, rfl⟩ := List.cons.inj hrest
      rcases List.append_eq_append_iff.1 hpiece with ⟨front, -, rfl⟩ | ⟨front, rfl, hmore⟩
      · exact absurd (List.mem_append_right _ List.mem_cons_self) hmem
      · cases front with
        | nil =>
          rw [List.nil_append] at hmore
          exact absurd (hmore ▸ List.mem_cons_self) hmem
        | cons e front =>
          obtain ⟨rfl, rfl⟩ := List.cons.inj hmore
          refine .inr ⟨front, rfl, rfl, trigger_iff.2 ⟨hform, fun d hd => hbefore d ?_, hafter⟩⟩
          rw [List.getLast?_append, List.getLast?_cons, Option.mem_def.1 hd, Option.some_or]
          rfl

/-- Places in a text, counted from further in front. -/
def shift (n : Nat) (span : Nat × Nat) : Nat × Nat := (n + span.1, n + span.2)

theorem Encloses.behind {span : Nat × Nat} {before word : List Char} (h : Encloses span before word)
    (piece : List Char) (c : Char) : Encloses (shift (piece.length + 1) span) (piece ++ c :: before) word := by
  obtain ⟨hfront, hback⟩ := h
  constructor
  case front =>
    simp only [List.length_append, List.length_cons, shift]
    omega
  case back =>
    simp only [List.length_append, List.length_cons, shift]
    omega

theorem between_left {piece : List Char} {span : Nat × Nat} (h : span.2 ≤ piece.length) (rest : List Char) :
    between (piece ++ rest) span = between piece span := by
  rw [between, List.take_append_of_le_length h, between]

theorem between_shift (piece : List Char) (c : Char) (rest : List Char) (span : Nat × Nat) :
    between (piece ++ c :: rest) (shift (piece.length + 1) span) = between rest span := by
  have hfront : piece ++ c :: rest = piece ++ [c] ++ rest := by simp
  have hlength : piece.length + 1 = (piece ++ [c]).length := by simp
  rw [between, shift, hfront, hlength, List.take_length_add_append, List.drop_length_add_append, between]

/-- A separator and more text behind a piece only move the places of what is found there. -/
theorem Placed.append {piece rest : List Char} {found others : List (List Char)} {spans behind : List (Nat × Nat)}
    {c : Char} (hc : isWordChar c = false) (h : Placed piece found spans) (hbehind : Placed rest others behind) :
    Placed (piece ++ c :: rest) (found ++ others) (spans ++ behind.map (shift (piece.length + 1))) := by
  constructor
  case texts =>
    have hleft : spans.map (between (piece ++ c :: rest)) = spans.map (between piece) :=
      List.map_congr_left fun span hspan => between_left (h.within span hspan).2 _
    have hright : (behind.map (shift (piece.length + 1))).map (between (piece ++ c :: rest)) =
        behind.map (between rest) := by
      rw [List.map_map]
      exact List.map_congr_left fun span _ => between_shift piece c rest span
    rw [List.map_append, hleft, hright, h.texts, hbehind.texts]
  case within =>
    rw [List.forall_mem_append, List.forall_mem_map]
    simp only [List.length_append, List.length_cons, shift]
    constructor
    · intro span hspan
      have hin := h.within span hspan
      omega
    · intro span hspan
      have hin := hbehind.within span hspan
      omega
  case ordered =>
    simp only [List.pairwise_append, List.pairwise_map, List.forall_mem_map, shift]
    refine ⟨h.ordered, hbehind.ordered.imp fun hle => by omega, ?_⟩
    intro span hspan other _
    have hin := h.within span hspan
    omega
  case covers =>
    intro before word after hwhole htrigger
    rcases htrigger.split hc hwhole.symm with ⟨more, hpiece, hthere⟩ | ⟨more, rfl, hrest, hthere⟩
    · obtain ⟨span, hspan, hin⟩ := h.covers before word more hpiece hthere
      exact ⟨span, List.mem_append_left _ hspan, hin⟩
    · obtain ⟨span, hspan, hin⟩ := hbehind.covers more word after hrest hthere
      exact ⟨_, List.mem_append_right _ (List.mem_map_of_mem hspan), hin.behind piece c⟩

theorem exists_placed (text : List Char) :
    ∃ spans, Placed text (((text.splitOnP endsPhrase).filterMap phrase?).map trim) spans := by
  rw [List.filterMap_eq_flatMap_toList]
  induction text using split_induction endsPhrase with
  | last piece h =>
    rw [List.splitOnP_eq_singleton h, List.flatMap_singleton]
    exact exists_placed_piece piece
  | more piece c rest h hc ih =>
    obtain ⟨spans, hplaced⟩ := exists_placed_piece piece
    obtain ⟨behind, hbehind⟩ := ih
    rw [List.splitOnP_append_cons_of_forall_mem h c hc, List.flatMap_cons, List.map_append]
    exact ⟨_, hplaced.append (isWordChar_of_endsPhrase hc) hbehind⟩

/-- Places one after the other have nothing in common, so no trigger word is in two of them. -/
theorem Placed.existsUnique {text : List Char} {found : List (List Char)} {spans : List (Nat × Nat)}
    (h : Placed text found spans) {before word after : List Char} (htext : text = before ++ word ++ after)
    (htrigger : Trigger before word after) : ∃! span, span ∈ spans ∧ Encloses span before word := by
  obtain ⟨span, hspan, hin⟩ := h.covers before word after htext htrigger
  refine ⟨span, ⟨hspan, hin⟩, ?_⟩
  rintro other ⟨hother, hinOther⟩
  by_contra hne
  have hapart : spans.Pairwise fun a b => a.2 ≤ b.1 ∨ b.2 ≤ a.1 := h.ordered.imp Or.inl
  have hsymm : Std.Symm fun a b : Nat × Nat => a.2 ≤ b.1 ∨ b.2 ≤ a.1 := ⟨fun _ _ => Or.symm⟩
  have hpos := List.length_pos_iff.2 htrigger.ne_nil
  have hlt := hapart.forall hother hspan hne
  have hfront := hin.front
  have hback := hin.back
  have hfrontOther := hinOther.front
  have hbackOther := hinOther.back
  omega

theorem flatMap_words (text : List Char) : (text.splitOnP endsPhrase).flatMap words = words text := by
  induction text using split_induction endsPhrase with
  | last piece h => rw [List.splitOnP_eq_singleton h, List.flatMap_singleton]
  | more piece c rest h hc ih =>
    rw [List.splitOnP_append_cons_of_forall_mem h c hc, List.flatMap_cons, ih,
      words_append_cons piece rest (isWordChar_of_endsPhrase hc)]

theorem phrase?_eq_none_iff_words (piece : List Char) :
    phrase? piece = none ↔ ∀ form ∈ triggerWords, form.toList ∉ words piece := by
  rw [phrase?_eq_none_iff]
  constructor
  · intro h form hform hmem
    obtain ⟨before, word, after, htext, htrigger⟩ := (exists_trigger_iff piece).2 ⟨form, hform, hmem⟩
    exact h before word after htext htrigger
  · intro h before word after htext htrigger
    obtain ⟨form, hform, hmem⟩ := (exists_trigger_iff piece).1 ⟨before, word, after, htext, htrigger⟩
    exact h form hform hmem

theorem filterMap_phrase?_eq_nil_iff (text : List Char) :
    (text.splitOnP endsPhrase).filterMap phrase? = [] ↔ ∀ form ∈ triggerWords, form.toList ∉ words text := by
  rw [List.filterMap_eq_nil_iff, ← flatMap_words text]
  simp only [phrase?_eq_none_iff_words, List.mem_flatMap, not_exists, not_and]
  exact ⟨fun h form hform piece hpiece => h piece hpiece form hform,
    fun h piece hpiece form hform => h form hform piece hpiece⟩

/-- A phrase goes over no full stop and no semicolon. -/
theorem of_mem_filterMap_phrase? {text phrase : List Char}
    (h : phrase ∈ (text.splitOnP endsPhrase).filterMap phrase?) : ∀ c ∈ trim phrase, endsPhrase c = false := by
  obtain ⟨piece, hpiece, hphrase⟩ := List.mem_filterMap.1 h
  obtain ⟨skipped, hsplit, htrigger, -⟩ := of_phrase?_eq_some hphrase
  obtain ⟨-, blanks, htrim, -⟩ := htrigger.exists_trim
  intro c hc
  apply of_mem_splitOnP endsPhrase text piece hpiece
  rw [hsplit, htrim]
  exact List.mem_append_right _ (List.mem_append_left _ hc)

/-- The phrases are found piece by piece: each trigger word of the effect is in one of them, and they have no more. -/
structure Phrased (effect : String) (found : List String) : Prop where
  /-- A piece between full stops and semicolons says one phrase, from its first trigger word to its end. -/
  pieces : found = ((effect.toList.splitOnP fun c => c = '.' || c = ';').filterMap phrase?).map
    fun phrase => String.ofList (trim phrase)
  placed : ∃ spans, Placed effect.toList (found.map String.toList) spans ∧
    ∀ before word after, effect.toList = before ++ word ++ after → Trigger before word after →
      ∃! span, span ∈ spans ∧ Encloses span before word
  closed : ∀ phrase ∈ found, '.' ∉ phrase.toList ∧ ';' ∉ phrase.toList
  silent : found = [] ↔
    ∀ form ∈ ["When", "Whenever", "After", "Before", "While", "During"], form.toList ∉ words effect.toList

theorem triggers_phrased (effect : String) : Phrased effect (triggers effect) := by
  have hpieces : triggers effect = ((effect.toList.splitOnP endsPhrase).filterMap phrase?).map
      fun phrase => String.ofList (trim phrase) := by
    rw [triggers, phrases_eq]
  constructor
  case pieces => exact hpieces
  case placed =>
    obtain ⟨spans, hplaced⟩ := exists_placed effect.toList
    have htexts : (triggers effect).map String.toList =
        ((effect.toList.splitOnP endsPhrase).filterMap phrase?).map trim := by
      rw [hpieces, List.map_map]
      exact List.map_congr_left fun _ _ => String.toList_ofList
    rw [htexts]
    exact ⟨spans, hplaced, fun _ _ _ htext htrigger => hplaced.existsUnique htext htrigger⟩
  case closed =>
    intro phrase hphrase
    rw [hpieces] at hphrase
    obtain ⟨found, hfound, rfl⟩ := List.mem_map.1 hphrase
    have hclosed := of_mem_filterMap_phrase? hfound
    rw [String.toList_ofList]
    exact ⟨fun hdot => absurd (hclosed _ hdot) (by decide), fun hmark => absurd (hclosed _ hmark) (by decide)⟩
  case silent =>
    rw [hpieces, List.map_eq_nil_iff]
    exact filterMap_phrase?_eq_nil_iff effect.toList

example : triggers "Afterwards draw. When hit, or While ready ; Whenever" =
    ["When hit, or While ready", "Whenever"] := by decide +kernel

end CardIndex.Effect
