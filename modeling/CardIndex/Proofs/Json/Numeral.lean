import CardIndex.Json.Lexer

namespace CardIndex.Json.Numeral

theorem naturalText_isDigit (n : Nat) : ∀ c ∈ naturalText n, c.isDigit := fun _ hc =>
  Nat.isDigit_of_mem_toDigits (by decide) (by decide) hc

theorem naturalText_ne_nil (n : Nat) : naturalText n ≠ [] := Nat.toDigits_ne_nil

/-- Only zero is written with a zero in front. -/
theorem naturalText_of_head (n : Nat) (h : (naturalText n).head? = some '0') :
    naturalText n = ['0'] := by
  unfold naturalText at *
  induction n using Nat.strongRecOn with
  | ind n ih =>
    by_cases hn : n < 10
    · rw [Nat.toDigits_of_lt_base hn] at h ⊢
      simpa using h
    · rw [Nat.toDigits_of_base_le (by decide) (by omega)] at h ⊢
      have hfront : (Nat.toDigits 10 (n / 10)).head? = some '0' := by
        obtain ⟨c, cs, hcs⟩ := List.exists_cons_of_ne_nil (Nat.toDigits_ne_nil (b := 10) (n := n / 10))
        rw [hcs] at h ⊢
        exact h
      have hzero := ih (n / 10) (by omega) hfront
      have hvalue : Nat.ofDigitChars 10 (Nat.toDigits 10 (n / 10)) 0 = n / 10 :=
        Nat.ofDigitChars_ten_toDigits
      rw [hzero] at hvalue
      have hnone : Nat.ofDigitChars 10 ['0'] 0 = 0 := by decide
      omega

/-- The digits at the start of a text end where the rest does not begin with one. -/
theorem takeDigits_append (digits rest : List Char) (hd : ∀ c ∈ digits, c.isDigit)
    (hr : ∀ c ∈ rest.head?, c.isDigit = false) :
    Decimal.takeDigits (digits ++ rest) = (digits, rest) := by
  unfold Decimal.takeDigits
  rw [List.takeWhile_append_of_pos hd, List.dropWhile_append_of_pos hd]
  cases rest with
  | nil => simp
  | cons c cs => simp [hr c rfl]

/-- The fraction with the point before it. -/
def pointed : List Char → List Char
  | [] => []
  | fraction => '.' :: fraction

def signText (negative : Bool) : List Char := if negative then ['-'] else []

/-- The parts of a number's text behind its sign: digits without a leading zero, a fraction, an exponent. -/
structure Spelling (whole fraction mark : List Char) : Prop where
  whole_ne_nil : whole ≠ []
  whole_isDigit : ∀ c ∈ whole, c.isDigit
  whole_head : whole.head? = some '0' → whole = ['0']
  fraction_isDigit : ∀ c ∈ fraction, c.isDigit
  mark_head : ∀ c ∈ mark.head?, c = 'e' ∨ c = 'E'
  exponent : (Decimal.exponentOf? mark).isSome

theorem isDigit_ne (c d : Char) (hc : c.isDigit) (hd : d.isDigit = false := by decide) : c ≠ d := by
  rintro rfl
  rw [hc] at hd
  exact absurd hd (by decide)

theorem isNumberChar_of_isDigit (c : Char) (hc : c.isDigit) : Lexer.isNumberChar c := by
  simp [Lexer.isNumberChar, hc]

theorem Spelling.mark_isDigit {whole fraction mark : List Char} (h : Spelling whole fraction mark) :
    ∀ c ∈ mark.head?, c.isDigit = false := by
  intro c hc
  rcases h.mark_head c hc with rfl | rfl <;> decide

theorem Spelling.rest_head {whole fraction mark : List Char} (h : Spelling whole fraction mark) :
    ∀ c ∈ (pointed fraction ++ mark).head?, c.isDigit = false := by
  intro c hc
  cases fraction with
  | nil => exact h.mark_isDigit c hc
  | cons f fs =>
    have hpoint : '.' = c := Option.some.inj hc
    rw [← hpoint]; decide

/-- The number that the digits before the point and what follows them are read as. -/
def ofRest? (negative : Bool) (whole : List Char) : List Char → Option Numeral
  | [] => some (ofWhole negative whole)
  | '.' :: cs =>
    let (fraction, rest) := Decimal.takeDigits cs
    if fraction = [] then none else (Decimal.exponentOf? rest).map (ofDigits negative whole fraction ·)
  | rest => (Decimal.exponentOf? rest).map (ofDigits negative whole [] ·)

theorem Spelling.ofText?_signText {whole fraction mark : List Char} (h : Spelling whole fraction mark)
    (negative : Bool) :
    Numeral.ofText? (signText negative ++ (whole ++ (pointed fraction ++ mark))) =
      ofRest? negative whole (pointed fraction ++ mark) := by
  have htake := takeDigits_append whole _ h.whole_isDigit h.rest_head
  have hgood : ¬ (whole = [] ∨ (whole.head? = some '0' ∧ whole ≠ ['0'])) := by
    rintro (hnil | ⟨hzero, hmore⟩)
    · exact h.whole_ne_nil hnil
    · exact hmore (h.whole_head hzero)
  unfold Numeral.ofText?
  cases negative with
  | true =>
    simp only [signText, if_true, List.cons_append, List.nil_append, htake]
    rw [if_neg hgood]
    rfl
  | false =>
    obtain ⟨c, cs, rfl⟩ := List.exists_cons_of_ne_nil h.whole_ne_nil
    have hplain : c ≠ '-' := isDigit_ne c '-' (h.whole_isDigit c List.mem_cons_self)
    simp only [signText, Bool.false_eq_true, if_false, List.nil_append, List.cons_append]
    rw [List.cons_append] at htake
    split
    · rename_i heq
      exact absurd (List.cons.inj heq).1 hplain
    · simp only [htake]
      rw [if_neg hgood]
      rfl

theorem Spelling.ofRest? {whole fraction mark : List Char} (h : Spelling whole fraction mark)
    (negative : Bool) :
    Numeral.ofRest? negative whole (pointed fraction ++ mark) =
      if fraction = [] ∧ mark = [] then some (ofWhole negative whole)
      else (Decimal.exponentOf? mark).map (ofDigits negative whole fraction ·) := by
  cases fraction with
  | nil =>
    cases mark with
    | nil => rfl
    | cons c cs =>
      rcases h.mark_head c rfl with rfl | rfl <;> rfl
  | cons f fs =>
    have htake := takeDigits_append (f :: fs) mark h.fraction_isDigit h.mark_isDigit
    simp only [pointed, List.cons_append, Numeral.ofRest?]
    rw [← List.cons_append, htake]
    simp

/-- What a well-formed spelling is read as. -/
theorem Spelling.ofText? {whole fraction mark : List Char} (h : Spelling whole fraction mark)
    (negative : Bool) :
    ofText? (signText negative ++ (whole ++ (pointed fraction ++ mark))) =
      if fraction = [] ∧ mark = [] then some (ofWhole negative whole)
      else (Decimal.exponentOf? mark).map (ofDigits negative whole fraction ·) := by
  rw [h.ofText?_signText, h.ofRest?]

theorem pointed_of_ne_nil {fraction : List Char} (h : fraction ≠ []) : pointed fraction = '.' :: fraction := by
  cases fraction with
  | nil => exact absurd rfl h
  | cons c cs => rfl

theorem mem_zeros_isDigit (n : Nat) : ∀ c ∈ zeros n, c.isDigit := by
  intro c hc
  rw [List.eq_of_mem_replicate hc]; decide

/-- The mark of an exponent, with the sign always written. -/
def exponentMark (exponent : Int) : List Char :=
  'e' :: (if exponent < 0 then '-' else '+') :: naturalText exponent.natAbs

theorem exponentOf?_exponentMark (exponent : Int) :
    Decimal.exponentOf? (exponentMark exponent) = some exponent := by
  have hdigits : (naturalText exponent.natAbs).all Char.isDigit := by
    simpa using naturalText_isDigit exponent.natAbs
  have hvalue : Nat.ofDigitChars 10 (naturalText exponent.natAbs) 0 = exponent.natAbs :=
    Nat.ofDigitChars_ten_toDigits
  have hgood : naturalText exponent.natAbs ≠ [] ∧ (naturalText exponent.natAbs).all Char.isDigit :=
    ⟨naturalText_ne_nil _, hdigits⟩
  by_cases hneg : exponent < 0
  · have hback : -(exponent.natAbs : Int) = exponent := by omega
    simp only [exponentMark, Decimal.exponentOf?, Decimal.takeSign, hneg, true_or, if_true]
    rw [if_pos hgood, hvalue, hback]
  · have hback : (exponent.natAbs : Int) = exponent := by omega
    simp only [exponentMark, Decimal.exponentOf?, Decimal.takeSign, hneg, true_or, if_true, if_false,
      Bool.false_eq_true]
    rw [if_pos hgood, hvalue, hback]

/-- The digits of a natural number are a spelling on their own. -/
theorem spelling_naturalText (n : Nat) : Spelling (naturalText n) [] [] :=
  ⟨naturalText_ne_nil n, naturalText_isDigit n, naturalText_of_head n, by simp, by simp, rfl⟩

/-- So are all of them with a point among them. -/
theorem Spelling.point_within {digits : List Char} (h : Spelling digits [] []) (k : Nat)
    (hk : k + 1 < digits.length) : Spelling (digits.take (k + 1)) (digits.drop (k + 1)) [] := by
  refine ⟨by simpa using h.whole_ne_nil, fun c hc => h.whole_isDigit c (List.mem_of_mem_take hc), ?_,
    fun c hc => h.whole_isDigit c (List.mem_of_mem_drop hc), by simp, rfl⟩
  intro hzero
  rw [List.head?_take, if_neg (by omega)] at hzero
  have hone := congrArg List.length (h.whole_head hzero)
  simp only [List.length_singleton] at hone
  omega

theorem Spelling.point_before {digits : List Char} (h : Spelling digits [] []) (n : Nat) :
    Spelling ['0'] (zeros n ++ digits) [] := by
  refine ⟨by simp, ?_, fun _ => rfl, ?_, by simp, rfl⟩
  · intro c hc
    rw [List.mem_singleton.1 hc]; decide
  intro c hc
  rcases List.mem_append.1 hc with hc | hc
  · exact mem_zeros_isDigit n c hc
  · exact h.whole_isDigit c hc

theorem Spelling.scientific {digits : List Char} (h : Spelling digits [] []) (exponent : Int) :
    Spelling (digits.take 1) (digits.drop 1) (exponentMark exponent) := by
  refine ⟨by simpa using h.whole_ne_nil, fun c hc => h.whole_isDigit c (List.mem_of_mem_take hc), ?_,
    fun c hc => h.whole_isDigit c (List.mem_of_mem_drop hc), ?_, ?_⟩
  · intro hzero
    rw [List.head?_take, if_neg (by omega)] at hzero
    rw [h.whole_head hzero]; rfl
  · intro c hc
    exact .inl (Option.some.inj hc).symm
  · rw [exponentOf?_exponentMark]; rfl

/-- The digits and the mark of a spelling have these values, and something shows that it is no integer. -/
structure Gives (whole fraction mark : List Char) (significand : Nat) (exponent : Int) : Prop where
  value : Nat.ofDigitChars 10 (whole ++ fraction) 0 = significand
  scale : Decimal.exponentOf? mark = some (exponent + fraction.length)
  not_integer : ¬ (fraction = [] ∧ mark = [])

theorem ofDigitChars_zeros (n : Nat) (digits : List Char) :
    Nat.ofDigitChars 10 (zeros n ++ digits) 0 = Nat.ofDigitChars 10 digits 0 := by
  induction n with
  | zero => rfl
  | succ n ih => exact ih

/-- The text of a decimal is a spelling in each of its three forms, and gives the decimal. -/
theorem spelling_magnitudeText (significand : Nat) (exponent : Int) :
    ∃ whole fraction mark, Spelling whole fraction mark ∧
      magnitudeText significand exponent = whole ++ (pointed fraction ++ mark) ∧
      Gives whole fraction mark significand exponent := by
  have h := spelling_naturalText significand
  have hvalue : Nat.ofDigitChars 10 (naturalText significand) 0 = significand := Nat.ofDigitChars_ten_toDigits
  have hlength := List.length_pos_iff.2 h.whole_ne_nil
  unfold magnitudeText
  generalize naturalText significand = digits at *
  dsimp only
  split
  · obtain ⟨k, hk⟩ : ∃ k : Nat, (digits.length : Int) + exponent = (k + 1 : Nat) :=
      ⟨((digits.length : Int) + exponent - 1).toNat, by omega⟩
    have hfraction : digits.drop (k + 1) ≠ [] := by simp; omega
    refine ⟨_, _, _, h.point_within k (by omega), ?_, ?_, ?_, fun hnone => hfraction hnone.1⟩
    · rw [hk, Int.toNat_natCast, pointed_of_ne_nil hfraction, List.append_nil]
    · rw [List.take_append_drop, hvalue]
    · rw [List.length_drop]
      exact congrArg some (by omega)
  · split
    · have hfraction : zeros (-((digits.length : Int) + exponent)).toNat ++ digits ≠ [] := by
        simp [h.whole_ne_nil]
      refine ⟨_, _, _, h.point_before (-((digits.length : Int) + exponent)).toNat, ?_, ?_, ?_,
        fun hnone => hfraction hnone.1⟩
      · rw [pointed_of_ne_nil hfraction, List.append_nil]
        rfl
      · rw [← hvalue]
        exact ofDigitChars_zeros (_ + 1) digits
      · rw [List.length_append, zeros, List.length_replicate]
        exact congrArg some (by omega)
    · refine ⟨_, _, _, h.scientific ((digits.length : Int) + exponent - 1), ?_, ?_, ?_, by simp [exponentMark]⟩
      · by_cases hone : digits.length = 1
        · have hdrop : digits.drop 1 = [] := List.drop_eq_nil_of_le (by omega)
          rw [if_pos hone, hdrop]
          simp [pointed, exponentMark]
        · have hdrop : digits.drop 1 ≠ [] := by
            rw [ne_eq, List.drop_eq_nil_iff]
            omega
          rw [if_neg hone, pointed_of_ne_nil hdrop]
          simp [exponentMark]
      · rw [List.take_append_drop, hvalue]
      · rw [exponentOf?_exponentMark, List.length_drop]
        exact congrArg some (by omega)

theorem text_integer (n : Int) :
    (integer n).text = signText (n < 0) ++ (naturalText n.natAbs ++ (pointed [] ++ [])) := by
  by_cases hneg : n < 0
  · simp [text, integerText, signText, hneg, pointed]
  · simp [text, integerText, signText, hneg, pointed]

/-- The text of a numeral is a sign, if any, and a spelling. -/
theorem exists_spelling_text (n : Numeral) : ∃ negative whole fraction mark,
    Spelling whole fraction mark ∧ n.text = signText negative ++ (whole ++ (pointed fraction ++ mark)) := by
  cases n with
  | integer n =>
    exact ⟨n < 0, naturalText n.natAbs, [], [], spelling_naturalText _, text_integer n⟩
  | decimal negative significand exponent =>
    obtain ⟨whole, fraction, mark, hspell, htext, -⟩ := spelling_magnitudeText significand exponent
    exact ⟨negative, whole, fraction, mark, hspell, by rw [text, htext]; rfl⟩

theorem isSome_ofText?_text (n : Numeral) : (ofText? n.text).isSome := by
  obtain ⟨negative, whole, fraction, mark, hspell, htext⟩ := n.exists_spelling_text
  rw [htext, hspell.ofText?]
  split
  · rfl
  · rw [Option.isSome_map]
    exact hspell.exponent

/-- The numeral that a numeral's text is read as. -/
def reread (n : Numeral) : Numeral := (ofText? n.text).getD n

theorem ofText?_text (n : Numeral) : ofText? n.text = some n.reread := by
  obtain ⟨m, hm⟩ := Option.isSome_iff_exists.1 n.isSome_ofText?_text
  rw [reread, hm, Option.getD_some]

/-- An integer of 64 bits, with or without a sign, is written and read without change. -/
theorem reread_integer (n : Int) (hlow : Int64.minValue.toInt ≤ n) (hhigh : n < UInt64.size) :
    (integer n).reread = integer n := by
  have hread := (spelling_naturalText n.natAbs).ofText? (n < 0)
  have hvalue : Nat.ofDigitChars 10 (naturalText n.natAbs) 0 = n.natAbs := Nat.ofDigitChars_ten_toDigits
  rw [reread, text_integer, hread, if_pos ⟨rfl, rfl⟩, Option.getD_some, ofWhole, hvalue]
  by_cases hneg : n < 0
  · have hback : -(n.natAbs : Int) = n := by omega
    simp only [hneg, decide_true, if_true, hback]
    rw [if_pos ⟨by omega, hlow⟩]
  · have hback : (n.natAbs : Int) = n := by omega
    have hfits : n.natAbs < UInt64.size := by omega
    simp [hneg, hback, hfits]

end CardIndex.Json.Numeral
