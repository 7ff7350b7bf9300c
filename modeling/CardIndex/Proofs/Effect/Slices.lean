import CardIndex.Proofs.Effect.Sentences

namespace CardIndex.Effect

open Text

/-- How many bytes a text takes. -/
def byteSize (cs : List Char) : Nat := (String.ofList cs).utf8ByteSize

/-- A newline, or a mark with the white space behind it: the bytes from `start` to `stop`. -/
structure Break where
  start : Nat
  stop : Nat
  isNewline : Bool

/-- The breaks of a text that begins at the given byte, from left to right. A mark takes all white space behind it,
and the next break is looked for behind that. -/
def breaks (offset : Nat) : List Char → List Break
  | [] => []
  | c :: cs =>
    if c = '\n' then ⟨offset, offset + 1, true⟩ :: breaks (offset + 1) cs
    else if endsSentence c && cs.head?.any isBlank then
      let stop := offset + 1 + byteSize (cs.takeWhile isBlank)
      ⟨offset, stop, false⟩ :: breaks stop (cs.dropWhile isBlank)
    else breaks (offset + byteSize [c]) cs
termination_by cs => cs.length
decreasing_by
  · exact Nat.lt_succ_self _
  · exact Nat.lt_succ_of_le (List.dropWhile_suffix isBlank).length_le
  · exact Nat.lt_succ_self _

/-- The bounds of the slices from `start` to the end of a text with so many bytes: each one goes up to a break, and its
mark, if it has one, is part of it. -/
def bounds (start size : Nat) : List Break → List (Nat × Nat)
  | [] => [(start, size)]
  | b :: bs => (start, if b.isNewline then b.start else b.start + 1) :: bounds b.stop size bs

/-- What stands between two bounds, if both are in the text and between characters, the first one not behind the
other. -/
def slice? (text : String) (bound : Nat × Nat) : Option String := do
  let first ← text.pos? ⟨bound.1⟩
  let last ← text.pos? ⟨bound.2⟩
  (text.slice? first last).map (·.copy)

/-- The slices of a text, if all bounds are good. -/
def slices? (text : String) : Option (List String) :=
  (bounds 0 text.utf8ByteSize (breaks 0 text.toList)).mapM (slice? text)

@[simp] theorem byteSize_nil : byteSize [] = 0 := rfl

@[simp] theorem byteSize_append (cs ds : List Char) : byteSize (cs ++ ds) = byteSize cs + byteSize ds := by
  rw [byteSize, String.ofList_append, String.utf8ByteSize_append, byteSize, byteSize]

theorem byteSize_mark {c : Char} (h : endsSentence c) : byteSize [c] = 1 := by
  simp only [endsSentence, Bool.or_eq_true, decide_eq_true_eq] at h
  rcases h with (rfl | rfl) | rfl <;> decide

theorem byteSize_toList (text : String) : byteSize text.toList = text.utf8ByteSize := by
  rw [byteSize, String.ofList_toList]

theorem pos?_append (before after : String) :
    ∃ p : (before ++ after).Pos, (before ++ after).pos? ⟨before.utf8ByteSize⟩ = some p ∧
      p.offset = ⟨before.utf8ByteSize⟩ := by
  have hvalid : (⟨before.utf8ByteSize⟩ : String.Pos.Raw).IsValid (before ++ after) :=
    String.Pos.Raw.isValid_iff_exists_append.2 ⟨before, after, rfl, rfl⟩
  refine ⟨(before ++ after).pos _ hvalid, ?_, rfl⟩
  unfold String.pos? String.Slice.pos?
  rw [dif_pos (String.Pos.Raw.isValidForSlice_eq_true_iff.2 hvalid.toSlice)]
  rfl

theorem slice?_append (before part after : String) :
    slice? (before ++ part ++ after) (before.utf8ByteSize, before.utf8ByteSize + part.utf8ByteSize) = some part := by
  have hfirst := pos?_append before (part ++ after)
  have hlast := pos?_append (before ++ part) after
  rw [← String.append_assoc] at hfirst
  rw [String.utf8ByteSize_append] at hlast
  obtain ⟨p, hp, hstart⟩ := hfirst
  obtain ⟨q, hq, hstop⟩ := hlast
  have hle : p ≤ q := by
    rw [String.Pos.le_iff, hstart, hstop]
    exact Nat.le_add_right _ _
  have hbytes : (before ++ part ++ after).toByteArray.extract before.utf8ByteSize
      (before.utf8ByteSize + part.utf8ByteSize) = part.toByteArray := by
    have hbehind := ByteArray.extract_append_size_add (a := before.toByteArray)
      (b := part.toByteArray ++ after.toByteArray) (i := 0) (j := part.toByteArray.size)
    rw [String.append_assoc, String.toByteArray_append, String.toByteArray_append, ← String.size_toByteArray,
      ← String.size_toByteArray]
    rw [Nat.add_zero, ByteArray.extract_append_size_left, ByteArray.extract_zero_size] at hbehind
    exact hbehind
  have hcopy : ((before ++ part ++ after).slice p q hle).copy = part := by
    rw [← String.toByteArray_inj, String.Slice.toByteArray_copy, String.startInclusive_slice,
      String.endExclusive_slice, hstart, hstop]
    exact hbytes
  simp only [slice?, hp, hq, Option.bind_eq_bind, Option.bind_some]
  rw [String.slice?, dif_pos hle, Option.map_some, hcopy]

theorem slice?_ofList (before part after : List Char) :
    slice? (String.ofList (before ++ part ++ after)) (byteSize before, byteSize before + byteSize part) =
      some (String.ofList part) := by
  rw [String.ofList_append, String.ofList_append]
  exact slice?_append _ _ _

/-- One slice more. -/
theorem mapM_slice?_cons {text before part after : List Char} {stop : Nat} {bs : List (Nat × Nat)}
    {slices : List (List Char)} (htext : text = before ++ part ++ after)
    (hstop : stop = byteSize before + byteSize part)
    (h : bs.mapM (slice? (String.ofList text)) = some (slices.map String.ofList)) :
    ((byteSize before, stop) :: bs).mapM (slice? (String.ofList text)) =
      some ((part :: slices).map String.ofList) := by
  have hone := slice?_ofList before part after
  rw [← htext, ← hstop] at hone
  rw [List.mapM_cons, hone, h]
  rfl

theorem trimmedPieces_congr_tail (p : List Char) {ps qs : List (List Char)} (h : trimmedPieces ps = trimmedPieces qs) :
    trimmedPieces (p :: ps) = trimmedPieces (p :: qs) := by
  unfold trimmedPieces at h ⊢
  rw [List.map_cons, List.map_cons, List.filter_cons, List.filter_cons, h]

/-- A text that begins with a break: its mark, the white space that it takes, and where the next break is looked for. -/
structure StartsWith (text mark gap rest : List Char) (offset : Nat) (b : Break) : Prop where
  split : text = mark ++ gap ++ rest
  gap_ne_nil : gap ≠ []
  breaks : breaks offset text = b :: breaks b.stop rest
  bound : (if b.isNewline then b.start else b.start + 1) = offset + byteSize mark
  stop : b.stop = offset + byteSize mark + byteSize gap
  pieces : ∃ pieces, fragments text = mark :: pieces ∧ trimmedPieces pieces = trimmedPieces (fragments rest)

/-- What the next character is: the start of a break, or part of the slice that has begun. -/
theorem startsWith_or (offset : Nat) (c : Char) (cs : List Char) :
    (∃ mark gap rest b, StartsWith (c :: cs) mark gap rest offset b) ∨
    breaks offset (c :: cs) = breaks (offset + byteSize [c]) cs ∧
      fragments (c :: cs) = (fragments cs).modifyHead (c :: ·) := by
  by_cases hnewline : c = '\n'
  · subst hnewline
    refine .inl ⟨[], ['\n'], cs, ⟨offset, offset + 1, true⟩, ?_⟩
    exact ⟨rfl, List.cons_ne_nil _ _, by rw [breaks, if_pos rfl], rfl, rfl, _, rfl, rfl⟩
  by_cases hcut : (endsSentence c && cs.head?.any isBlank) = true
  · obtain ⟨hmark, hblank⟩ := Bool.and_eq_true_iff.1 hcut
    obtain ⟨d, ds, rfl⟩ : ∃ d ds, cs = d :: ds := by
      cases cs with
      | nil => cases hblank
      | cons d ds => exact ⟨d, ds, rfl⟩
    have hd : isBlank d := hblank
    have hgap : Blank ((d :: ds).takeWhile isBlank) := List.all_eq_true.1 List.all_takeWhile
    have hsplit : (d :: ds).takeWhile isBlank ++ (d :: ds).dropWhile isBlank = d :: ds :=
      List.takeWhile_append_dropWhile
    refine .inl ⟨[c], (d :: ds).takeWhile isBlank, (d :: ds).dropWhile isBlank,
      ⟨offset, offset + 1 + byteSize ((d :: ds).takeWhile isBlank), false⟩, ?_⟩
    constructor
    case split => rw [List.append_assoc, hsplit, List.singleton_append]
    case gap_ne_nil =>
      rw [List.takeWhile_cons_of_pos hd]
      exact List.cons_ne_nil _ _
    case breaks => rw [breaks, if_neg hnewline, if_pos hcut]
    case bound => rw [byteSize_mark hmark]; rfl
    case stop => rw [byteSize_mark hmark]
    case pieces =>
      have hskip := trimmedPieces_blank_append hgap ((d :: ds).dropWhile isBlank)
      rw [hsplit] at hskip
      exact ⟨_, fragments_mark ds hmark hd, hskip⟩
  · obtain ⟨f, fs, hf⟩ := List.exists_cons_of_ne_nil (fragments_ne_nil cs)
    have hkept : endsSentence c → ∀ d ∈ cs.head?, isBlank d = false := by
      intro hmark d hd
      rw [← Bool.not_eq_true]
      intro hblank
      exact hcut (by simp [hmark, Option.mem_def.1 hd, hblank])
    refine .inr ⟨by rw [breaks, if_neg hnewline, if_neg hcut], ?_⟩
    rw [fragments_cons hnewline hkept hf, hf, List.modifyHead_cons]

/-- The slices from any place of the text on: `part` is what there is already of the slice that has begun, and `rest`
is still to come. -/
theorem exists_slices {text : List Char} (before part rest : List Char) (htext : text = before ++ part ++ rest) :
    ∃ slices, (bounds (byteSize before) (byteSize text) (breaks (byteSize before + byteSize part) rest)).mapM
        (slice? (String.ofList text)) = some (slices.map String.ofList) ∧
      trimmedPieces slices = trimmedPieces ((fragments rest).modifyHead (part ++ ·)) := by
  match rest, htext with
  | [], htext =>
    refine ⟨[part], ?_, ?_⟩
    · rw [breaks, bounds]
      exact mapM_slice?_cons htext (by simp [htext]) rfl
    · rw [fragments, List.modifyHead_cons, List.append_nil]
  | c :: cs, htext =>
    rcases startsWith_or (byteSize before + byteSize part) c cs with ⟨mark, gap, rest, b, h⟩ | ⟨hbreaks, hfragments⟩
    · have hbehind : text = before ++ (part ++ mark) ++ gap ++ [] ++ rest := by
        rw [htext, h.split]
        simp
      have hstop : byteSize (before ++ (part ++ mark) ++ gap) = b.stop := by
        rw [h.stop, byteSize_append, byteSize_append, byteSize_append, ← Nat.add_assoc (byteSize before)]
      obtain ⟨pieces, hfragments, hpieces⟩ := h.pieces
      have hshorter := congrArg List.length h.split
      have hgap := List.length_pos_iff.2 h.gap_ne_nil
      obtain ⟨slices, hslices, htrimmed⟩ := exists_slices _ [] rest hbehind
      rw [byteSize_nil, Nat.add_zero, hstop] at hslices
      refine ⟨(part ++ mark) :: slices, ?_, ?_⟩
      · rw [h.breaks, bounds, h.bound, Nat.add_assoc, ← byteSize_append]
        have hslice : text = before ++ (part ++ mark) ++ (gap ++ rest) := by simp [htext, h.split]
        exact mapM_slice?_cons hslice rfl hslices
      · rw [hfragments, List.modifyHead_cons]
        refine trimmedPieces_congr_tail _ ?_
        rw [htrimmed, hpieces]
        exact congrArg trimmedPieces (congrFun List.modifyHead_id (fragments rest))
    · have hbehind : text = before ++ (part ++ [c]) ++ cs := by
        rw [htext]
        simp
      obtain ⟨slices, hslices, htrimmed⟩ := exists_slices before (part ++ [c]) cs hbehind
      refine ⟨slices, ?_, ?_⟩
      · rw [hbreaks, Nat.add_assoc, ← byteSize_append]
        exact hslices
      · obtain ⟨f, fs, hf⟩ := List.exists_cons_of_ne_nil (fragments_ne_nil cs)
        rw [htrimmed, hfragments, hf, List.modifyHead_cons, List.modifyHead_cons, List.modifyHead_cons,
          List.append_assoc, List.singleton_append]
termination_by rest.length
decreasing_by
  · simp only [List.length_append, List.length_cons] at hshorter ⊢
    omega
  · exact Nat.lt_succ_self _

/-- A text is what its clauses are made of, however they are found. -/
structure Segmented (effect : String) (clauses : List String) : Prop where
  /-- They are not empty, white space stands at none of their ends, and no sentence ends inside of one. -/
  isClause : ∀ clause ∈ clauses, IsClause clause.toList
  /-- They follow each other, with white space in between that has a newline or comes behind a mark. -/
  madeOf : MadeOf effect.toList (clauses.map String.toList)
  unique : ∀ others, MadeOf effect.toList (others.map String.toList) → others = clauses
  visible : (clauses.flatMap String.toList).filter (!isBlank ·) = effect.toList.filter (!isBlank ·)
  alone : ∀ clause ∈ clauses, clauseTexts clause = [clause]
  lines : clauseTexts ("\n".intercalate clauses) = clauses
  /-- All bounds that the text is sliced by are good ones, and the slices that are not blank are the clauses. -/
  slices : ∃ slices, slices? effect = some slices ∧ (slices.map String.trimBlank).filter (· ≠ "") = clauses

theorem clauseTexts_eq_iff (effect : String) (clauses : List String) :
    clauseTexts effect = clauses ↔ MadeOf effect.toList (clauses.map String.toList) := by
  rw [madeOf_iff]
  constructor
  · rintro rfl
    simp [clauseTexts]
  · intro h
    rw [clauseTexts, h]
    simp

theorem filter_trimBlank (slices : List (List Char)) :
    ((slices.map String.ofList).map String.trimBlank).filter (· ≠ "") = (trimmedPieces slices).map String.ofList := by
  have htrim : String.trimBlank ∘ String.ofList = String.ofList ∘ trim := by
    funext cs
    simp [String.trimBlank]
  have hempty : (fun s : String => decide (s ≠ "")) ∘ String.ofList = fun cs => decide (cs ≠ []) := by
    funext cs
    simp
  rw [List.map_map, htrim, ← List.map_map, List.filter_map, hempty, trimmedPieces]

theorem exists_slices? (effect : String) : ∃ slices, slices? effect = some slices ∧
    (slices.map String.trimBlank).filter (· ≠ "") = clauseTexts effect := by
  obtain ⟨slices, hslices, htrimmed⟩ := exists_slices [] [] effect.toList (Eq.refl effect.toList)
  rw [byteSize_nil, byteSize_toList, String.ofList_toList] at hslices
  refine ⟨_, hslices, ?_⟩
  rw [filter_trimBlank, htrimmed]
  exact congrArg (fun pieces => (trimmedPieces pieces).map String.ofList) (congrFun List.modifyHead_id _)

/-- Cutting an effect into clauses loses nothing, and no cut is left out. -/
theorem effect_segmented (effect : String) : Segmented effect (clauseTexts effect) := by
  have hmade := (clauseTexts_eq_iff effect _).1 rfl
  have hmade' := hmade
  obtain ⟨lead, body, htext, hlead, hbody⟩ := hmade'
  have hclauses : ∀ clause ∈ clauseTexts effect, IsClause clause.toList :=
    fun clause hclause => hbody.isClause _ (List.mem_map_of_mem hclause)
  constructor
  case isClause => exact hclauses
  case madeOf => exact hmade
  case unique => exact fun others h => ((clauseTexts_eq_iff effect others).2 h).symm
  case visible =>
    have hblank : lead.filter (!isBlank ·) = [] := List.filter_eq_nil_iff.2 fun c hc => by simp [hlead c hc]
    rw [htext, List.filter_append, hblank, List.nil_append, ← hbody.visible, List.flatMap_def]
  case alone =>
    intro clause hclause
    have hone := Sentences.last (hclauses clause hclause) blank_nil
    rw [List.append_nil] at hone
    exact (clauseTexts_eq_iff clause [clause]).2 ⟨[], _, rfl, blank_nil, hone⟩
  case lines =>
    refine (clauseTexts_eq_iff _ _).2 ⟨[], ("\n".intercalate (clauseTexts effect)).toList, rfl, blank_nil, ?_⟩
    rw [String.toList_intercalate]
    exact sentences_of_lines hbody.isClause
  case slices => exact exists_slices? effect

end CardIndex.Effect
