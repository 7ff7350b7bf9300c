import CardIndex.Proofs.Effect.Clauses
import CardIndex.Proofs.Text.Trimming
import Mathlib.Data.List.Basic

namespace CardIndex.Effect

open Text

/-- White space and nothing else. -/
def Blank (cs : List Char) : Prop := ∀ c ∈ cs, isBlank c

/-- Nowhere in the text a sentence ends: there is no newline, and no mark with white space behind it. -/
def Unbroken (cs : List Char) : Prop :=
  '\n' ∉ cs ∧ ∀ c ∈ ['.', '!', '?'], ∀ d, isBlank d → ¬ [c, d] <:+: cs

structure IsClause (cs : List Char) : Prop where
  ne_nil : cs ≠ []
  trimmed : Trimmed cs
  unbroken : Unbroken cs

/-- The clause ends with a mark. -/
def Marked (clause : List Char) : Prop := ∃ c ∈ clause.getLast?, c ∈ ['.', '!', '?']

/-- White space that comes between a clause and the next one. -/
structure Parts (clause gap : List Char) : Prop where
  ne_nil : gap ≠ []
  ends : '\n' ∈ gap ∨ Marked clause

/-- The text begins with the first of these clauses and goes on with the others. -/
inductive Sentences : List Char → List (List Char) → Prop
  | none : Sentences [] []
  | last {clause gap : List Char} (h : IsClause clause) (hgap : Blank gap) : Sentences (clause ++ gap) [clause]
  | more {clause gap rest next : List Char} {others : List (List Char)} (h : IsClause clause) (hgap : Blank gap)
      (hparts : Parts clause gap) (hrest : Sentences rest (next :: others)) :
      Sentences (clause ++ gap ++ rest) (clause :: next :: others)

/-- The text is made of these clauses. In front of the first one there may be white space. -/
def MadeOf (text : List Char) (clauses : List (List Char)) : Prop :=
  ∃ lead body, text = lead ++ body ∧ Blank lead ∧ Sentences body clauses

theorem blank_nil : Blank [] := fun _ hc => by cases hc

theorem blank_cons {c : Char} {cs : List Char} : Blank (c :: cs) ↔ isBlank c ∧ Blank cs := List.forall_mem_cons

theorem endsSentence_iff {c : Char} : endsSentence c ↔ c ∈ ['.', '!', '?'] := by
  simp [endsSentence, or_assoc]

theorem not_isBlank_of_endsSentence {c : Char} (h : endsSentence c) : isBlank c = false := by
  simp only [endsSentence, Bool.or_eq_true, decide_eq_true_eq] at h
  rcases h with (rfl | rfl) | rfl <;> decide

theorem not_endsSentence_of_isBlank {c : Char} (h : isBlank c) : endsSentence c = false := by
  rw [← Bool.not_eq_true]
  intro hends
  rw [not_isBlank_of_endsSentence hends] at h
  cases h

theorem not_marked_of_blank {cs : List Char} (h : Blank cs) : ¬ Marked cs := by
  rintro ⟨c, hlast, hc⟩
  rw [← endsSentence_iff, not_endsSentence_of_isBlank (h c (List.mem_of_getLast? hlast))] at hc
  cases hc

theorem Unbroken.of_infix {cs part : List Char} (h : Unbroken cs) (hpart : part <:+: cs) : Unbroken part :=
  ⟨fun hmem => h.1 (hpart.subset hmem), fun c hc d hd hpair => h.2 c hc d hd (hpair.trans hpart)⟩

theorem unbroken_nil : Unbroken [] := by
  refine ⟨List.not_mem_nil, fun c _ d _ hpair => ?_⟩
  rw [List.infix_nil] at hpair
  cases hpair

theorem unbroken_cons {c : Char} {cs : List Char} :
    Unbroken (c :: cs) ↔
      c ≠ '\n' ∧ (endsSentence c → ∀ d ∈ cs.head?, isBlank d = false) ∧ Unbroken cs := by
  constructor
  · intro h
    refine ⟨?_, ?_, h.of_infix (List.suffix_cons c cs).isInfix⟩
    · rintro rfl
      exact h.1 List.mem_cons_self
    · intro hc d hd
      obtain ⟨after, rfl⟩ := List.head?_eq_some_iff.1 hd
      rw [← Bool.not_eq_true]
      intro hblank
      exact h.2 c (endsSentence_iff.1 hc) d hblank ⟨[], after, rfl⟩
  · rintro ⟨hnewline, hhead, hcs⟩
    refine ⟨?_, ?_⟩
    · rw [List.mem_cons, not_or]
      exact ⟨hnewline.symm, hcs.1⟩
    · intro x hx d hd hpair
      rw [List.infix_cons_iff, List.cons_prefix_cons] at hpair
      rcases hpair with ⟨rfl, after, rfl⟩ | hpair
      · have hnot := hhead (endsSentence_iff.2 hx) d rfl
        rw [hd] at hnot
        cases hnot
      · exact hcs.2 x hx d hd hpair

/-- Behind a clause without a mark there may be white space, as long as no newline comes. -/
theorem Unbroken.append_blank {cs blanks : List Char} (h : Unbroken cs) (hmark : ¬ Marked cs)
    (hblanks : Blank blanks) (hnewline : '\n' ∉ blanks) : Unbroken (cs ++ blanks) := by
  induction cs with
  | nil =>
    refine ⟨hnewline, fun c hc d _ hpair => ?_⟩
    rw [← endsSentence_iff, not_endsSentence_of_isBlank (hblanks c (hpair.subset List.mem_cons_self))] at hc
    cases hc
  | cons c cs ih =>
    obtain ⟨hc, hhead, hcs⟩ := unbroken_cons.1 h
    cases cs with
    | nil =>
      have hnoMark : ¬ endsSentence c := fun hends => hmark ⟨c, rfl, endsSentence_iff.1 hends⟩
      refine unbroken_cons.2 ⟨hc, fun hends => absurd hends hnoMark, ih unbroken_nil ?_⟩
      exact not_marked_of_blank blank_nil
    | cons d cs =>
      have hrest := ih hcs fun hmarked => hmark (by simpa [Marked] using hmarked)
      exact unbroken_cons.2 ⟨hc, hhead, hrest⟩

theorem fragments_newline (cs : List Char) : fragments ('\n' :: cs) = [] :: fragments cs := rfl

theorem fragments_mark {c d : Char} (cs : List Char) (hc : endsSentence c) (hd : isBlank d) :
    fragments (c :: d :: cs) = [c] :: fragments (d :: cs) := by
  have hnewline : c ≠ '\n' := by
    rintro rfl
    cases hc
  obtain ⟨f, fs, hf⟩ := List.exists_cons_of_ne_nil (fragments_ne_nil (d :: cs))
  rw [fragments, if_neg hnewline, hf]
  simp [hc, hd]

/-- Where no sentence ends the first fragment goes on. -/
theorem fragments_cons {c : Char} {cs f : List Char} {fs : List (List Char)} (hnewline : c ≠ '\n')
    (hc : endsSentence c → ∀ d ∈ cs.head?, isBlank d = false) (hf : fragments cs = f :: fs) :
    fragments (c :: cs) = (c :: f) :: fs := by
  have hcut : (endsSentence c && (cs.head?.map isBlank).getD false) = false := by
    rw [Bool.and_eq_false_imp]
    intro hends
    cases hhead : cs.head? with
    | none => rfl
    | some d => exact hc hends d hhead
  rw [fragments, if_neg hnewline, hf]
  simp only [hcut, Bool.false_eq_true, if_false]

theorem fragments_append {part rest f : List Char} {fs : List (List Char)} (hpart : Unbroken part)
    (hlast : Marked part → ∀ d ∈ rest.head?, isBlank d = false) (hf : fragments rest = f :: fs) :
    fragments (part ++ rest) = (part ++ f) :: fs := by
  induction part with
  | nil => exact hf
  | cons c part ih =>
    obtain ⟨hnewline, hhead, hunbroken⟩ := unbroken_cons.1 hpart
    cases part with
    | nil => exact fragments_cons hnewline (fun hc => hlast ⟨c, rfl, endsSentence_iff.1 hc⟩) hf
    | cons d part =>
      have hmore := ih hunbroken fun hmarked => hlast (by simpa [Marked] using hmarked)
      exact fragments_cons hnewline hhead hmore

theorem fragments_of_unbroken {cs : List Char} (h : Unbroken cs) : fragments cs = [cs] := by
  have hone : fragments (cs ++ []) = [cs ++ []] := fragments_append h (fun _ _ hd => by cases hd) rfl
  rwa [List.append_nil] at hone

/-- A mark ends the first fragment if white space comes behind it. -/
theorem fragments_append_of_marked {clause : List Char} (h : Unbroken clause) (hmark : Marked clause) {d : Char}
    (hd : isBlank d) (cs : List Char) : fragments (clause ++ d :: cs) = clause :: fragments (d :: cs) := by
  obtain ⟨c, hlast, hmember⟩ := hmark
  have hc := endsSentence_iff.2 hmember
  obtain ⟨front, rfl⟩ := List.getLast?_eq_some_iff.1 hlast
  have hhead : ∀ x ∈ (c :: d :: cs).head?, isBlank x = false := by
    intro x hx
    exact Option.some.inj hx ▸ not_isBlank_of_endsSentence hc
  have hfront := h.of_infix (List.prefix_append front [c]).isInfix
  have hcut := fragments_append hfront (fun _ => hhead) (fragments_mark cs hc hd)
  rwa [List.append_assoc]

/-- A newline ends the first fragment if no mark does. -/
theorem fragments_append_newline {part : List Char} (h : Unbroken part) (hmark : ¬ Marked part)
    (cs : List Char) : fragments (part ++ '\n' :: cs) = part :: fragments cs := by
  have hcut := fragments_append h (fun hmarked => absurd hmarked hmark) (fragments_newline cs)
  rwa [List.append_nil] at hcut

theorem trimmedPieces_clause_cons {clause blanks : List Char} (h : IsClause clause) (hblanks : Blank blanks)
    (ps : List (List Char)) : trimmedPieces ((clause ++ blanks) :: ps) = clause :: trimmedPieces ps := by
  have htrim := (trim_append_blank clause hblanks).trans h.trimmed.trim
  simp [trimmedPieces, htrim, h.ne_nil]

/-- White space at the start of a text goes into no clause. -/
theorem trimmedPieces_blank_append {gap : List Char} (hgap : Blank gap) (cs : List Char) :
    trimmedPieces (fragments (gap ++ cs)) = trimmedPieces (fragments cs) := by
  induction gap with
  | nil => rfl
  | cons c gap ih =>
    obtain ⟨hc, hgap⟩ := blank_cons.1 hgap
    rw [← ih hgap, List.cons_append]
    by_cases hnewline : c = '\n'
    · rw [hnewline, fragments_newline]
      rfl
    · obtain ⟨f, fs, hf⟩ := List.exists_cons_of_ne_nil (fragments_ne_nil (gap ++ cs))
      have hmark := not_endsSentence_of_isBlank hc
      have htrim : trim (c :: f) = trim f := by
        rw [trim, trim, trimStart, List.dropWhile_cons_of_pos hc, trimStart]
      rw [fragments_cons hnewline (by simp [hmark]) hf, hf]
      simp only [trimmedPieces, List.map_cons, htrim]

/-- The clause at the start of a text is the first one. -/
theorem trimmedPieces_clause_append {clause gap rest : List Char} (h : IsClause clause) (hgap : Blank gap)
    (hrest : rest = [] ∨ Parts clause gap) :
    trimmedPieces (fragments (clause ++ gap ++ rest)) = clause :: trimmedPieces (fragments rest) := by
  have hclause := trimmedPieces_clause_cons h blank_nil
  rw [List.append_nil] at hclause
  by_cases hmark : Marked clause
  · cases gap with
    | nil =>
      obtain rfl : rest = [] := hrest.resolve_right fun hparts => hparts.ne_nil rfl
      rw [List.append_nil, List.append_nil, fragments_of_unbroken h.unbroken, hclause]
      rfl
    | cons d gap =>
      have hcut := fragments_append_of_marked h.unbroken hmark (blank_cons.1 hgap).1 (gap ++ rest)
      rw [List.append_assoc, List.cons_append, hcut, hclause, ← List.cons_append, trimmedPieces_blank_append hgap]
  by_cases hnewline : '\n' ∈ gap
  · -- The fragment goes on to the first newline; what white space is left belongs to the next one.
    obtain ⟨before, after, rfl, hbefore⟩ := List.eq_append_cons_of_mem hnewline
    have hblanks : Blank before := fun c hc => hgap c (List.mem_append_left _ hc)
    have hafter : Blank after := fun c hc => hgap c (List.mem_append_right _ (List.mem_cons_of_mem _ hc))
    have hunbroken := h.unbroken.append_blank hmark hblanks hbefore
    have hnoMark : ¬ Marked (clause ++ before) := by
      cases before with
      | nil => rwa [List.append_nil]
      | cons c before =>
        rintro ⟨x, hx, hends⟩
        rw [List.getLast?_append_of_ne_nil _ (List.cons_ne_nil c before)] at hx
        exact not_marked_of_blank hblanks ⟨x, hx, hends⟩
    have hcut := fragments_append_newline hunbroken hnoMark (after ++ rest)
    have htext : clause ++ (before ++ '\n' :: after) ++ rest = clause ++ before ++ '\n' :: (after ++ rest) := by simp
    rw [htext, hcut, trimmedPieces_clause_cons h hblanks, trimmedPieces_blank_append hafter]
  · obtain rfl : rest = [] := hrest.resolve_right fun hparts => hparts.ends.elim hnewline hmark
    have hunbroken := h.unbroken.append_blank hmark hgap hnewline
    rw [List.append_nil, fragments_of_unbroken hunbroken, trimmedPieces_clause_cons h hgap]
    rfl

theorem trimmedPieces_of_sentences {body : List Char} {clauses : List (List Char)} (h : Sentences body clauses) :
    trimmedPieces (fragments body) = clauses := by
  induction h with
  | none => rfl
  | last h hgap =>
    have hpieces := trimmedPieces_clause_append h hgap (.inl (Eq.refl []))
    rwa [List.append_nil] at hpieces
  | more h hgap hparts hrest ih => rw [trimmedPieces_clause_append h hgap (.inr hparts), ih]

/-- More text in front of a clause makes a longer clause, if no sentence ends in between. -/
theorem IsClause.cons_append {c : Char} {blanks cs : List Char} (h : IsClause cs) (hc : isBlank c = false)
    (hblanks : Blank blanks) (hnewline : '\n' ∉ blanks) (hmark : endsSentence c → blanks = []) :
    IsClause (c :: blanks ++ cs) := by
  have hplain : c ≠ '\n' := by
    rintro rfl
    cases hc
  have hbody : Unbroken (blanks ++ cs) := by
    induction blanks with
    | nil => exact h.unbroken
    | cons b blanks ih =>
      obtain ⟨hb, hblanks⟩ := blank_cons.1 hblanks
      rw [List.mem_cons, not_or] at hnewline
      have hends := not_endsSentence_of_isBlank hb
      have hrest := ih hblanks hnewline.2 fun hends => nomatch hmark hends
      exact unbroken_cons.2 ⟨Ne.symm hnewline.1, by simp [hends], hrest⟩
  refine ⟨List.cons_ne_nil _ _, ⟨?_, ?_⟩, unbroken_cons.2 ⟨hplain, ?_, hbody⟩⟩
  · intro d hd
    exact Option.some.inj hd ▸ hc
  · intro d hd
    rw [List.getLast?_append_of_ne_nil _ h.ne_nil] at hd
    exact h.trimmed.last d hd
  · intro hends
    rw [hmark hends]
    exact h.trimmed.head

theorem isClause_singleton {c : Char} (hc : isBlank c = false) : IsClause [c] := by
  have hplain : c ≠ '\n' := by
    rintro rfl
    cases hc
  refine ⟨List.cons_ne_nil _ _, trimmed_of_forall ?_, unbroken_cons.2 ⟨hplain, by simp, unbroken_nil⟩⟩
  simpa using hc

theorem exists_gap (cs : List Char) :
    ∃ gap rest, cs = gap ++ rest ∧ Blank gap ∧ ∀ c ∈ rest.head?, isBlank c = false :=
  ⟨cs.takeWhile isBlank, cs.dropWhile isBlank, List.takeWhile_append_dropWhile.symm,
    List.all_eq_true.1 List.all_takeWhile, head_dropWhile isBlank cs⟩

/-- A text that does not begin with white space begins with a clause, and then it ends or another one begins. -/
theorem exists_clause (c : Char) (cs : List Char) (hc : isBlank c = false) :
    ∃ clause gap rest, c :: cs = clause ++ gap ++ rest ∧ IsClause clause ∧ Blank gap ∧
      (rest = [] ∨ Parts clause gap ∧ ∀ d ∈ rest.head?, isBlank d = false) := by
  obtain ⟨gap, rest, htext, hgap, hhead⟩ := exists_gap cs
  by_cases hparts : Parts [c] gap
  · exact ⟨[c], gap, rest, by simp [htext], isClause_singleton hc, hgap, .inr ⟨hparts, hhead⟩⟩
  cases rest with
  | nil => exact ⟨[c], gap, [], by simp [htext], isClause_singleton hc, hgap, .inl rfl⟩
  | cons d rest =>
    -- Nothing ends here, so the clause goes on with the next one.
    obtain ⟨clause, gap', rest', heq, hclause, hgap', hends⟩ := exists_clause d rest (hhead d rfl)
    have hnone : gap = [] ∨ '\n' ∉ gap ∧ ¬ endsSentence c := by
      by_cases hne : gap = []
      · exact .inl hne
      · refine .inr ⟨fun hnewline => hparts ⟨hne, .inl hnewline⟩, fun hmark => hparts ⟨hne, .inr ⟨c, rfl, endsSentence_iff.1 hmark⟩⟩⟩
    have hnewline : '\n' ∉ gap := by
      rcases hnone with rfl | hnone
      · exact List.not_mem_nil
      · exact hnone.1
    have hlonger := hclause.cons_append hc hgap hnewline fun hmark => hnone.resolve_right fun h => h.2 hmark
    refine ⟨c :: gap ++ clause, gap', rest', by simp [htext, heq], hlonger, hgap', hends.imp_right ?_⟩
    rintro ⟨hparts', hrest'⟩
    refine ⟨⟨hparts'.ne_nil, hparts'.ends.imp_right ?_⟩, hrest'⟩
    rintro ⟨x, hx, hmark⟩
    exact ⟨x, by rwa [List.getLast?_append_of_ne_nil _ hclause.ne_nil], hmark⟩
termination_by cs.length
decreasing_by
  rw [htext, List.length_append, List.length_cons]
  omega

theorem exists_sentences (body : List Char) (h : ∀ c ∈ body.head?, isBlank c = false) :
    ∃ clauses, Sentences body clauses := by
  match body, h with
  | [], _ => exact ⟨[], .none⟩
  | c :: cs, h =>
    obtain ⟨clause, gap, rest, heq, hclause, hgap, hends⟩ := exists_clause c cs (h c rfl)
    have hlength := congrArg List.length heq
    have hpos := List.length_pos_iff.2 hclause.ne_nil
    rw [heq]
    rcases hends with rfl | ⟨hparts, hrest⟩
    · exact ⟨[clause], by simpa using .last hclause hgap⟩
    · obtain ⟨clauses, hclauses⟩ := exists_sentences rest hrest
      cases clauses with
      | nil =>
        cases hclauses
        exact ⟨[clause], by simpa using .last hclause hgap⟩
      | cons next others => exact ⟨clause :: next :: others, .more hclause hgap hparts hclauses⟩
termination_by body.length
decreasing_by
  simp only [List.length_cons, List.length_append] at hlength ⊢
  omega

/-- Every text is made of clauses in one way: the one in which it is cut. -/
theorem madeOf_iff (text : List Char) (clauses : List (List Char)) :
    MadeOf text clauses ↔ trimmedPieces (fragments text) = clauses := by
  have hread {clauses : List (List Char)} (h : MadeOf text clauses) :
      trimmedPieces (fragments text) = clauses := by
    obtain ⟨lead, body, rfl, hlead, hbody⟩ := h
    rw [trimmedPieces_blank_append hlead, trimmedPieces_of_sentences hbody]
  constructor
  · exact hread
  · rintro rfl
    obtain ⟨lead, body, htext, hlead, hhead⟩ := exists_gap text
    obtain ⟨clauses, hclauses⟩ := exists_sentences body hhead
    have hmade : MadeOf text clauses := ⟨lead, body, htext, hlead, hclauses⟩
    rwa [hread hmade]

theorem Sentences.isClause {body : List Char} {clauses : List (List Char)} (h : Sentences body clauses) :
    ∀ clause ∈ clauses, IsClause clause := by
  induction h with
  | none => exact fun clause hclause => by cases hclause
  | last h hgap => simpa using h
  | more h hgap hparts hrest ih => exact List.forall_mem_cons.2 ⟨h, ih⟩

/-- What is visible of the text is visible in the clauses, in the same order. -/
theorem Sentences.visible {body : List Char} {clauses : List (List Char)} (h : Sentences body clauses) :
    clauses.flatten.filter (!isBlank ·) = body.filter (!isBlank ·) := by
  have hnone {gap : List Char} (hgap : Blank gap) : gap.filter (!isBlank ·) = [] := by
    rw [List.filter_eq_nil_iff]
    intro c hc
    simp [hgap c hc]
  induction h with
  | none => rfl
  | last h hgap => simp [hnone hgap]
  | more h hgap hparts hrest ih =>
    rw [List.flatten_cons, List.filter_append, List.filter_append, List.filter_append, hnone hgap, ih,
      List.append_nil]

/-- Clauses on lines of their own stay these clauses. -/
theorem sentences_of_lines {clauses : List (List Char)} (h : ∀ clause ∈ clauses, IsClause clause) :
    Sentences (['\n'].intercalate clauses) clauses := by
  have hnewline : Blank ['\n'] := by simp [Blank, isBlank]
  induction clauses with
  | nil => exact .none
  | cons clause clauses ih =>
    rw [List.forall_mem_cons] at h
    cases clauses with
    | nil =>
      have hone := Sentences.last h.1 blank_nil
      rw [List.append_nil] at hone
      rwa [List.intercalate_singleton]
    | cons next others =>
      rw [List.intercalate_cons_cons]
      exact .more h.1 hnewline ⟨List.cons_ne_nil _ _, .inl List.mem_cons_self⟩ (ih h.2)

end CardIndex.Effect
