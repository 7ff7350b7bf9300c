import CardIndex.Proofs.Json.Parser

namespace CardIndex.Json

namespace Numeral

/-- A point or the mark of an exponent: the parts behind the digits are told apart by how they start. -/
theorem Spelling.pointed_unique {whole fraction mark whole' fraction' mark' : List Char}
    (h : Spelling whole fraction mark) (h' : Spelling whole' fraction' mark')
    (heq : pointed fraction ++ mark = pointed fraction' ++ mark') : fraction = fraction' ∧ mark = mark' := by
  have hpoint : ∀ {w f m : List Char}, Spelling w f m → ∀ cs, m ≠ '.' :: cs := by
    intro w f m hs cs hm
    have hc := hs.mark_head '.' (by rw [hm]; rfl)
    exact absurd hc (by decide)
  cases fraction with
  | nil =>
    cases fraction' with
    | nil => exact ⟨rfl, heq⟩
    | cons c cs => exact absurd heq (hpoint h _)
  | cons c cs =>
    cases fraction' with
    | nil => exact absurd heq.symm (hpoint h' _)
    | cons d ds =>
      have hdigits : c :: cs ++ mark = d :: ds ++ mark' := List.tail_eq_of_cons_eq heq
      have htake := takeDigits_append (c :: cs) mark h.fraction_isDigit h.mark_isDigit
      rw [hdigits] at htake
      have htake' := takeDigits_append (d :: ds) mark' h'.fraction_isDigit h'.mark_isDigit
      exact Prod.mk.inj (htake.symm.trans htake')

theorem Spelling.unique {negative negative' : Bool} {whole fraction mark whole' fraction' mark' : List Char}
    (h : Spelling whole fraction mark) (h' : Spelling whole' fraction' mark')
    (heq : signText negative ++ (whole ++ (pointed fraction ++ mark)) =
      signText negative' ++ (whole' ++ (pointed fraction' ++ mark'))) :
    negative = negative' ∧ whole = whole' ∧ fraction = fraction' ∧ mark = mark' := by
  have hminus : ∀ {w f m : List Char}, Spelling w f m → ∀ cs, w ++ (pointed f ++ m) ≠ '-' :: cs := by
    intro w f m hs cs hw
    obtain ⟨d, ds, rfl⟩ := List.exists_cons_of_ne_nil hs.whole_ne_nil
    exact isDigit_ne d '-' (hs.whole_isDigit d List.mem_cons_self) rfl (List.cons.inj hw).1
  have hsame : negative = negative' ∧ whole ++ (pointed fraction ++ mark) = whole' ++ (pointed fraction' ++ mark') := by
    cases negative <;> cases negative'
    · exact ⟨rfl, heq⟩
    · exact absurd heq (hminus h _)
    · exact absurd heq.symm (hminus h' _)
    · exact ⟨rfl, List.tail_eq_of_cons_eq heq⟩
  have htake := takeDigits_append whole _ h.whole_isDigit h.rest_head
  rw [hsame.2, takeDigits_append whole' _ h'.whole_isDigit h'.rest_head] at htake
  obtain ⟨hwhole, hrest⟩ := Prod.mk.inj htake
  exact ⟨hsame.1, hwhole.symm, h.pointed_unique h' hrest.symm⟩

theorem text_injective : Function.Injective text := by
  intro n n' h
  cases n with
  | integer n =>
    cases n' with
    | integer n' =>
      rw [text_integer, text_integer] at h
      obtain ⟨hsign, hdigits, -, -⟩ := (spelling_naturalText _).unique (spelling_naturalText _) h
      have habs := congrArg (Nat.ofDigitChars 10 · 0) hdigits
      simp only [naturalText, Nat.ofDigitChars_ten_toDigits] at habs
      simp only [decide_eq_decide] at hsign
      exact congrArg integer (by omega)
    | decimal negative significand exponent =>
      obtain ⟨whole, fraction, mark, hspell, htext, hgives⟩ := spelling_magnitudeText significand exponent
      rw [text_integer, text, htext] at h
      obtain ⟨-, -, hfraction, hmark⟩ := (spelling_naturalText _).unique hspell h
      exact absurd hgives.not_integer (by simp [← hfraction, ← hmark])
  | decimal negative significand exponent =>
    obtain ⟨whole, fraction, mark, hspell, htext, hgives⟩ := spelling_magnitudeText significand exponent
    cases n' with
    | integer n' =>
      rw [text_integer, text, htext] at h
      obtain ⟨-, -, hfraction, hmark⟩ := (spelling_naturalText _).unique hspell h.symm
      exact absurd hgives.not_integer (by simp [← hfraction, ← hmark])
    | decimal negative' significand' exponent' =>
      obtain ⟨whole', fraction', mark', hspell', htext', hgives'⟩ := spelling_magnitudeText significand' exponent'
      rw [text, htext, text, htext'] at h
      obtain ⟨rfl, rfl, rfl, rfl⟩ := hspell.unique hspell' h
      have hexponent := hgives.scale.symm.trans hgives'.scale
      rw [Option.some.injEq] at hexponent
      obtain rfl : exponent = exponent' := by omega
      rw [← hgives.value, ← hgives'.value]

/-- A number's text ends where no character of a number follows. -/
theorem text_append_inj (n n' : Numeral) (rest rest' : List Char)
    (hrest : ∀ c ∈ rest.head?, Lexer.isNumberChar c = false)
    (hrest' : ∀ c ∈ rest'.head?, Lexer.isNumberChar c = false) (h : n.text ++ rest = n'.text ++ rest') :
    n = n' ∧ rest = rest' := by
  have htake : ∀ (m : Numeral) (r : List Char), (∀ c ∈ r.head?, Lexer.isNumberChar c = false) →
      (m.text ++ r).takeWhile Lexer.isNumberChar = m.text := by
    intro m r hr
    rw [List.takeWhile_append_of_pos (numberText_text m).isNumberChar]
    cases r with
    | nil => simp
    | cons c cs => simp [hr c rfl]
  have htext : n.text = n'.text := by rw [← htake n rest hrest, h, htake n' rest' hrest']
  rw [htext] at h
  exact ⟨text_injective htext, List.append_cancel_left h⟩

end Numeral

namespace Printer

open CardIndex.Json.Tree (rereadItems rereadMembers)

/-- What may stand behind a value does not continue a number. -/
def Stops (rest : List Char) : Prop := ∀ c ∈ rest.head?, Lexer.isNumberChar c = false

theorem stops_cons (c : Char) (rest : List Char) (h : Lexer.isNumberChar c = false) : Stops (c :: rest) := by
  intro d hd
  rw [← Option.some.inj hd]
  exact h

theorem stops_comma (rest : List Char) : Stops (',' :: rest) := stops_cons _ _ (by decide)

mutual

/-- Trees that are read again as the same tree and are written with the same text are the same. -/
theorem compact_append_inj : (t t' : Tree) → (rest rest' : List Char) → Stops rest → Stops rest' →
    t.reread = t'.reread → compact t ++ rest = compact t' ++ rest' → t = t' ∧ rest = rest'
  | .null, t', rest, rest', _, _, hread, h => by
    cases t' <;> simp_all [Tree.reread]
  | .bool b, t', rest, rest', _, _, hread, h => by
    cases t' <;> simp_all [Tree.reread]
  | .number n, t', rest, rest', hstops, hstops', hread, h => by
    cases t' with
    | number n' =>
      obtain ⟨rfl, hrest⟩ := Numeral.text_append_inj n n' rest rest' hstops hstops' h
      exact ⟨rfl, hrest⟩
    | null | bool b | string s | array items | object members => simp [Tree.reread] at hread
  | .string s, t', rest, rest', _, _, hread, h => by
    cases t' <;> simp_all [Tree.reread]
  | .array items, t', rest, rest', hstops, hstops', hread, h => by
    cases t' with
    | array items' =>
      simp only [Tree.reread, Tree.array.injEq] at hread
      simp only [compact, List.cons_append, List.cons.injEq, true_and, List.append_assoc] at h
      obtain ⟨rfl, hrest⟩ := compactItems_append_inj items items' (']' :: rest) (']' :: rest')
        (stops_cons _ _ (by decide)) (stops_cons _ _ (by decide)) hread h
      exact ⟨rfl, (List.cons.inj hrest).2⟩
    | null | bool b | number n | string s | object members => simp [Tree.reread] at hread
  | .object members, t', rest, rest', hstops, hstops', hread, h => by
    cases t' with
    | object members' =>
      simp only [Tree.reread, Tree.object.injEq] at hread
      simp only [compact, List.cons_append, List.cons.injEq, true_and, List.append_assoc] at h
      obtain ⟨rfl, hrest⟩ := compactMembers_append_inj members members' ('}' :: rest) ('}' :: rest')
        (stops_cons _ _ (by decide)) (stops_cons _ _ (by decide)) hread h
      exact ⟨rfl, (List.cons.inj hrest).2⟩
    | null | bool b | number n | string s | array items => simp [Tree.reread] at hread

theorem compactItems_append_inj : (items items' : List Tree) → (rest rest' : List Char) → Stops rest →
    Stops rest' → rereadItems items = rereadItems items' →
    compactItems items ++ rest = compactItems items' ++ rest' → items = items' ∧ rest = rest'
  | [], items', rest, rest', _, _, hread, h => by
    cases items' with
    | nil => exact ⟨rfl, h⟩
    | cons t' ts' => simp [rereadItems] at hread
  | [t], items', rest, rest', hstops, hstops', hread, h => by
    match items' with
    | [] => simp [rereadItems] at hread
    | [t'] =>
      obtain ⟨rfl, hrest⟩ := compact_append_inj t t' rest rest' hstops hstops' (List.cons.inj hread).1 h
      exact ⟨rfl, hrest⟩
    | t' :: u' :: ts' => simp [rereadItems] at hread
  | t :: u :: ts, items', rest, rest', hstops, hstops', hread, h => by
    match items' with
    | [] => simp [rereadItems] at hread
    | [t'] => simp [rereadItems] at hread
    | t' :: u' :: ts' =>
      simp only [compactItems, List.append_assoc, List.cons_append] at h
      obtain ⟨rfl, htail⟩ := compact_append_inj t t' _ _ (stops_comma _) (stops_comma _)
        (List.cons.inj hread).1 h
      obtain ⟨hitems, hrest⟩ := compactItems_append_inj (u :: ts) (u' :: ts') rest rest' hstops hstops'
        (List.cons.inj hread).2 (List.cons.inj htail).2
      exact ⟨congrArg _ hitems, hrest⟩

theorem compactMembers_append_inj : (members members' : List (Option String × Tree)) →
    (rest rest' : List Char) → Stops rest → Stops rest' → rereadMembers members = rereadMembers members' →
    compactMembers members ++ rest = compactMembers members' ++ rest' → members = members' ∧ rest = rest'
  | [], members', rest, rest', _, _, hread, h => by
    cases members' with
    | nil => exact ⟨rfl, h⟩
    | cons m' ms' => simp [rereadMembers] at hread
  | [(name, t)], members', rest, rest', hstops, hstops', hread, h => by
    match members' with
    | [] => simp [rereadMembers] at hread
    | [(name', t')] =>
      simp only [rereadMembers, List.cons.injEq, Prod.mk.injEq, and_true] at hread
      obtain ⟨rfl, hread⟩ := hread
      simp only [compactMembers, List.append_assoc, List.cons_append, List.append_cancel_left_eq, List.cons.injEq,
        true_and] at h
      obtain ⟨rfl, hrest⟩ := compact_append_inj t t' rest rest' hstops hstops' hread h
      exact ⟨rfl, hrest⟩
    | m' :: n' :: ms' => simp [rereadMembers] at hread
  | (name, t) :: n :: ms, members', rest, rest', hstops, hstops', hread, h => by
    match members' with
    | [] => simp [rereadMembers] at hread
    | [m'] => simp [rereadMembers] at hread
    | (name', t') :: n' :: ms' =>
      obtain ⟨hfirst, hreads⟩ := List.cons.inj hread
      obtain ⟨rfl, hvalue⟩ := Prod.mk.inj hfirst
      simp only [compactMembers, List.append_assoc, List.cons_append, List.append_cancel_left_eq, List.cons.injEq,
        true_and] at h
      obtain ⟨rfl, htail⟩ := compact_append_inj t t' _ _ (stops_comma _) (stops_comma _) hvalue h
      obtain ⟨hmembers, hrest⟩ := compactMembers_append_inj (n :: ms) (n' :: ms') rest rest' hstops hstops'
        hreads (List.cons.inj htail).2
      exact ⟨congrArg _ hmembers, hrest⟩

end

end Printer

theorem Tree.compactText_injective : Function.Injective Tree.compactText := by
  intro t t' h
  have hread : t.reread = t'.reread := by
    have hparse := t.ofText?_compactText
    rw [h, t'.ofText?_compactText, Option.some.injEq] at hparse
    exact hparse.symm
  have htext := congrArg String.toList h
  simp only [Tree.compactText, String.toList_ofList] at htext
  have hend : Printer.Stops [] := fun c hc => by cases hc
  exact (Printer.compact_append_inj t t' [] [] hend hend hread (by rw [htext])).1

end CardIndex.Json
