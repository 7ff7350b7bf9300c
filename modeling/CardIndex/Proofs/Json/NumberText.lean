import CardIndex.Proofs.Json.Numeral

namespace CardIndex.Json

structure Digits (cs : List Char) : Prop where
  ne_nil : cs ≠ []
  isDigit : ∀ c ∈ cs, c.isDigit

/-- The digits before the point: no zero stands before others. -/
structure WholeText (cs : List Char) : Prop extends Digits cs where
  head : cs.head? = some '0' → cs = ['0']

/-- The digits behind the point, with the point, if there are any. -/
inductive FractionText : List Char → List Char → Prop
  | absent : FractionText [] []
  | pointed {digits : List Char} (h : Digits digits) : FractionText ('.' :: digits) digits

inductive ExponentText : List Char → Int → Prop
  | absent : ExponentText [] 0
  | unsigned {mark : Char} {digits : List Char} (hmark : mark = 'e' ∨ mark = 'E') (h : Digits digits) :
    ExponentText (mark :: digits) (Nat.ofDigitChars 10 digits 0)
  | plus {mark : Char} {digits : List Char} (hmark : mark = 'e' ∨ mark = 'E') (h : Digits digits) :
    ExponentText (mark :: '+' :: digits) (Nat.ofDigitChars 10 digits 0)
  | minus {mark : Char} {digits : List Char} (hmark : mark = 'e' ∨ mark = 'E') (h : Digits digits) :
    ExponentText (mark :: '-' :: digits) (-Nat.ofDigitChars 10 digits 0)

/-- A number: without point and exponent it is an integer as far as there is room for it. -/
inductive NumberText : List Char → Numeral → Prop
  | whole {digits : List Char} (negative : Bool) (h : WholeText digits) :
    NumberText (Numeral.signText negative ++ digits) (.ofWhole negative digits)
  | decimal {digits point fraction mark : List Char} {exponent : Int} (negative : Bool) (h : WholeText digits)
    (hpoint : FractionText point fraction) (hmark : ExponentText mark exponent) (hne : point ≠ [] ∨ mark ≠ []) :
    NumberText (Numeral.signText negative ++ (digits ++ (point ++ mark))) (.ofDigits negative digits fraction exponent)

theorem exists_takeDigits (cs : List Char) : ∃ digits rest, Decimal.takeDigits cs = (digits, rest) ∧
    cs = digits ++ rest ∧ ∀ c ∈ digits, c.isDigit :=
  ⟨_, _, rfl, List.takeWhile_append_dropWhile.symm, fun c hc => List.all_eq_true.1 List.all_takeWhile c hc⟩

theorem exponentOf?_cons_iff (mark : Char) (cs : List Char) (exponent : Int) :
    Decimal.exponentOf? (mark :: cs) = some exponent ↔ (mark = 'e' ∨ mark = 'E') ∧ Digits (Decimal.takeSign cs).2 ∧
      exponent = if (Decimal.takeSign cs).1 then -(Nat.ofDigitChars 10 (Decimal.takeSign cs).2 0 : Int)
        else Nat.ofDigitChars 10 (Decimal.takeSign cs).2 0 := by
  have hdigits : ((Decimal.takeSign cs).2 ≠ [] ∧ (Decimal.takeSign cs).2.all Char.isDigit) ↔
      Digits (Decimal.takeSign cs).2 := by
    rw [List.all_eq_true]
    exact ⟨fun h => ⟨h.1, h.2⟩, fun h => ⟨h.1, h.2⟩⟩
  rw [Decimal.exponentOf?]
  split
  · rename_i hmark
    simp only [hdigits, Option.ite_none_right_eq_some, hmark, true_and, Option.some.injEq, @eq_comm Int exponent]
  · rename_i hmark
    simp [hmark]

theorem Digits.takeSign {cs : List Char} (h : Digits cs) : Decimal.takeSign cs = (false, cs) := by
  obtain ⟨c, cs, rfl⟩ := List.exists_cons_of_ne_nil h.ne_nil
  have hplain := fun d hd => Numeral.isDigit_ne c d (h.isDigit c List.mem_cons_self) hd
  unfold Decimal.takeSign
  split
  · rename_i heq
    exact absurd (List.cons.inj heq).1 (hplain '-' rfl)
  · rename_i heq
    exact absurd (List.cons.inj heq).1 (hplain '+' rfl)
  · rfl

/-- The exponents of the grammar are those that are read. -/
theorem exponentText_iff (cs : List Char) (exponent : Int) :
    ExponentText cs exponent ↔ Decimal.exponentOf? cs = some exponent := by
  constructor
  · intro h
    cases h with
    | absent => rfl
    | unsigned hmark h =>
      rw [exponentOf?_cons_iff, h.takeSign]
      exact ⟨hmark, h, rfl⟩
    | plus hmark h => exact (exponentOf?_cons_iff _ _ _).2 ⟨hmark, h, rfl⟩
    | minus hmark h => exact (exponentOf?_cons_iff _ _ _).2 ⟨hmark, h, rfl⟩
  · intro h
    cases cs with
    | nil =>
      obtain rfl := Option.some.inj h
      exact .absent
    | cons mark cs =>
      obtain ⟨hmark, hdigits, rfl⟩ := (exponentOf?_cons_iff mark cs exponent).1 h
      unfold Decimal.takeSign at hdigits ⊢
      split at hdigits
      · exact .minus hmark hdigits
      · exact .plus hmark hdigits
      · exact .unsigned hmark hdigits

theorem ExponentText.head {cs : List Char} {exponent : Int} (h : ExponentText cs exponent) :
    ∀ c ∈ cs.head?, c = 'e' ∨ c = 'E' := by
  intro c hc
  cases h with
  | absent => cases hc
  | unsigned hmark _ | plus hmark _ | minus hmark _ =>
    obtain rfl := Option.some.inj hc
    exact hmark

theorem ExponentText.isNumberChar {cs : List Char} {exponent : Int} (h : ExponentText cs exponent) :
    ∀ c ∈ cs, Lexer.isNumberChar c := by
  have hfirst (mark : Char) (hmark : mark = 'e' ∨ mark = 'E') : Lexer.isNumberChar mark := by
    rcases hmark with rfl | rfl <;> decide
  have hdigit {digits : List Char} (hd : Digits digits) (c : Char) (hc : c ∈ digits) : Lexer.isNumberChar c :=
    Numeral.isNumberChar_of_isDigit c (hd.isDigit c hc)
  cases h with
  | absent => simp
  | unsigned hmark h => simpa [hfirst _ hmark] using hdigit h
  | plus hmark h | minus hmark h => simpa [hfirst _ hmark] using ⟨by decide, hdigit h⟩

theorem FractionText.eq_pointed {point fraction : List Char} (h : FractionText point fraction) :
    point = Numeral.pointed fraction := by
  cases h with
  | absent => rfl
  | pointed h => exact (Numeral.pointed_of_ne_nil h.ne_nil).symm

theorem FractionText.isDigit {point fraction : List Char} (h : FractionText point fraction) :
    ∀ c ∈ fraction, c.isDigit := by
  cases h with
  | absent => simp
  | pointed h => exact h.isDigit

/-- The parts of a number are told apart as those of a number that is written out. -/
theorem WholeText.spelling {digits point fraction mark : List Char} {exponent : Int} (h : WholeText digits)
    (hpoint : FractionText point fraction) (hmark : ExponentText mark exponent) :
    Numeral.Spelling digits fraction mark where
  whole_ne_nil := h.ne_nil
  whole_isDigit := h.isDigit
  whole_head := h.head
  fraction_isDigit := hpoint.isDigit
  mark_head := hmark.head
  exponent := by rw [(exponentText_iff mark exponent).1 hmark]; rfl

theorem FractionText.isNumberChar {point fraction : List Char} (h : FractionText point fraction) :
    ∀ c ∈ point, Lexer.isNumberChar c := by
  cases h with
  | absent => simp
  | pointed h => simpa using ⟨by decide, fun c hc => Numeral.isNumberChar_of_isDigit c (h.isDigit c hc)⟩

theorem isNumberChar_signText (negative : Bool) : ∀ c ∈ Numeral.signText negative, Lexer.isNumberChar c := by
  intro c hc
  cases negative with
  | false => cases hc
  | true =>
    rw [List.mem_singleton.1 hc]
    decide

theorem NumberText.isNumberChar {cs : List Char} {n : Numeral} (h : NumberText cs n) :
    ∀ c ∈ cs, Lexer.isNumberChar c := by
  have hdigits {digits : List Char} (hd : WholeText digits) (c : Char) (hc : c ∈ digits) : Lexer.isNumberChar c :=
    Numeral.isNumberChar_of_isDigit c (hd.isDigit c hc)
  intro c hc
  cases h with
  | whole negative h =>
    rcases List.mem_append.1 hc with hc | hc
    · exact isNumberChar_signText negative c hc
    · exact hdigits h c hc
  | decimal negative h hpoint hmark hne =>
    simp only [List.mem_append] at hc
    rcases hc with hc | hc | hc | hc
    · exact isNumberChar_signText negative c hc
    · exact hdigits h c hc
    · exact hpoint.isNumberChar c hc
    · exact hmark.isNumberChar c hc

/-- A number starts with its sign or a digit. -/
theorem NumberText.exists_cons {cs : List Char} {n : Numeral} (h : NumberText cs n) :
    ∃ c rest, cs = c :: rest ∧ (c = '-' ∨ c.isDigit) := by
  have hstart (negative : Bool) {digits : List Char} (hd : WholeText digits) (rest : List Char) :
      ∃ c more, Numeral.signText negative ++ (digits ++ rest) = c :: more ∧ (c = '-' ∨ c.isDigit) := by
    obtain ⟨d, ds, rfl⟩ := List.exists_cons_of_ne_nil hd.ne_nil
    cases negative with
    | true => exact ⟨'-', _, rfl, .inl rfl⟩
    | false => exact ⟨d, _, rfl, .inr (hd.isDigit d List.mem_cons_self)⟩
  cases h with
  | whole negative h =>
    obtain ⟨c, more, hcs, hc⟩ := hstart negative h []
    rw [List.append_nil] at hcs
    exact ⟨c, more, hcs, hc⟩
  | decimal negative h hpoint hmark hne => exact hstart negative h _

theorem NumberText.ofText? {cs : List Char} {n : Numeral} (h : NumberText cs n) : Numeral.ofText? cs = some n := by
  cases h with
  | @whole digits negative h =>
    have hread := (h.spelling .absent .absent).ofText? negative
    rwa [if_pos ⟨rfl, rfl⟩, Numeral.pointed, List.append_nil, List.append_nil] at hread
  | @decimal digits point fraction mark exponent negative h hpoint hmark hne =>
    have hread := (h.spelling hpoint hmark).ofText? negative
    have hpart : ¬ (fraction = [] ∧ mark = []) := by
      rintro ⟨rfl, rfl⟩
      rw [hpoint.eq_pointed] at hne
      simp [Numeral.pointed] at hne
    rw [if_neg hpart, (exponentText_iff mark exponent).1 hmark, ← hpoint.eq_pointed] at hread
    exact hread

/-- What is read as a number has a sign, digits and a rest. -/
theorem exists_whole_of_ofText? {cs : List Char} {n : Numeral} (h : Numeral.ofText? cs = some n) :
    ∃ negative digits rest, cs = Numeral.signText negative ++ (digits ++ rest) ∧ WholeText digits ∧
      Numeral.ofRest? negative digits rest = some n := by
  unfold Numeral.ofText? at h
  split at h
  rename_i negative body hsign
  have hcs : cs = Numeral.signText negative ++ body := by
    split at hsign <;>
    · obtain ⟨rfl, rfl⟩ := Prod.mk.inj hsign
      rfl
  obtain ⟨digits, rest, htake, rfl, hdigits⟩ := exists_takeDigits body
  simp only [htake] at h
  obtain ⟨hgood, hrest⟩ := Option.ite_none_left_eq_some.1 h
  refine ⟨negative, digits, rest, hcs, ⟨⟨fun hnil => hgood (.inl hnil), hdigits⟩, fun hzero => ?_⟩, hrest⟩
  exact Decidable.byContradiction fun hmore => hgood (.inr ⟨hzero, hmore⟩)

/-- The numbers of the grammar are those that are read. -/
theorem numberText_iff (cs : List Char) (n : Numeral) : NumberText cs n ↔ Numeral.ofText? cs = some n := by
  refine ⟨NumberText.ofText?, fun h => ?_⟩
  obtain ⟨negative, digits, rest, rfl, hwhole, hrest⟩ := exists_whole_of_ofText? h
  unfold Numeral.ofRest? at hrest
  split at hrest
  · obtain rfl := Option.some.inj hrest
    rw [List.append_nil]
    exact .whole negative hwhole
  · rename_i cs
    obtain ⟨fraction, mark, htake, rfl, hdigits⟩ := exists_takeDigits cs
    simp only [htake] at hrest
    obtain ⟨hne, hexponent⟩ := Option.ite_none_left_eq_some.1 hrest
    obtain ⟨exponent, hmark, rfl⟩ := Option.map_eq_some_iff.1 hexponent
    have hpoint : FractionText ('.' :: fraction) fraction := .pointed ⟨hne, hdigits⟩
    exact .decimal negative hwhole hpoint ((exponentText_iff _ _).2 hmark) (.inl (List.cons_ne_nil _ _))
  · rename_i hnil hplain
    obtain ⟨exponent, hmark, rfl⟩ := Option.map_eq_some_iff.1 hrest
    exact .decimal negative hwhole .absent ((exponentText_iff _ _).2 hmark) (.inr hnil)

theorem numberText_text (n : Numeral) : NumberText n.text n.reread := (numberText_iff _ _).2 n.ofText?_text

end CardIndex.Json
