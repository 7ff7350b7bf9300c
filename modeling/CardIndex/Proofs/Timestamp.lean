import CardIndex.Timestamp.Text
import CardIndex.Proofs.Json.Numeral
import CardIndex.Proofs.Text.Trimming

namespace CardIndex.Timestamp

open Json.Numeral (takeDigits_append isDigit_ne)
open Text (isBlank_of_isDigit trimStart_of_head)

theorem padded_isDigit (width n : Nat) : ∀ c ∈ padded width n, c.isDigit := by
  induction width generalizing n with
  | zero => intro c hc; cases hc
  | succ width ih =>
    intro c hc
    rw [padded, List.mem_append, List.mem_singleton] at hc
    rcases hc with hc | rfl
    · exact ih (n / 10) c hc
    · rw [Nat.isDigit_digitChar, decide_eq_true (Nat.mod_lt n (by decide))]

@[simp] theorem length_padded (width n : Nat) : (padded width n).length = width := by
  induction width generalizing n with
  | zero => rfl
  | succ width ih => rw [padded, List.length_append, ih]; rfl

/-- Padded to a width that is enough, a number keeps its value. -/
theorem ofDigitChars_padded (width n : Nat) (h : n < Nat.pow 10 width) :
    Nat.ofDigitChars 10 (padded width n) 0 = n := by
  induction width generalizing n with
  | zero =>
    have hn : n = 0 := Nat.lt_one_iff.1 h
    rw [hn]; rfl
  | succ width ih =>
    have hpow : Nat.pow 10 (width + 1) = Nat.pow 10 width * 10 := rfl
    rw [padded, Nat.ofDigitChars_append, ih (n / 10) (by omega),
      Nat.ofDigitChars_cons_digitChar_of_lt_ten (Nat.mod_lt n (by decide)), Nat.ofDigitChars_nil]
    omega

/-- A number is taken off a text with all its digits, if there is room for them. -/
theorem takeNumber?_append (width : Nat) (digits rest : List Char) (hne : digits ≠ [])
    (hd : ∀ c ∈ digits, c.isDigit) (hwidth : digits.length ≤ width)
    (hr : ∀ c ∈ rest.head?, c.isDigit = false) :
    takeNumber? width (digits ++ rest) = some (Nat.ofDigitChars 10 digits 0, rest) := by
  have htrim : Text.trimStart (digits ++ rest) = digits ++ rest := by
    apply trimStart_of_head
    intro c hc
    obtain ⟨d, ds, rfl⟩ := List.exists_cons_of_ne_nil hne
    obtain rfl := Option.some.inj hc
    exact isBlank_of_isDigit d (hd d List.mem_cons_self)
  have htake : ((digits ++ rest).take width).takeWhile Char.isDigit = digits := by
    have hnone : ∀ c ∈ (rest.take (width - digits.length)).head?, c.isDigit = false := by
      intro c hc
      rw [List.head?_take] at hc
      split at hc
      · cases hc
      · exact hr c hc
    have h := takeDigits_append digits (rest.take (width - digits.length)) hd hnone
    rw [List.take_append, List.take_of_length_le hwidth]
    exact congrArg Prod.fst h
  simp only [takeNumber?, htrim, htake, if_neg hne, List.drop_left]

theorem takeNumber?_padded (width n : Nat) (rest : List Char) (hwidth : 0 < width)
    (hn : n < Nat.pow 10 width) (hr : ∀ c ∈ rest.head?, c.isDigit = false) :
    takeNumber? width (padded width n ++ rest) = some (n, rest) := by
  have hne : padded width n ≠ [] := by
    intro hnil
    have hlength := length_padded width n
    rw [hnil] at hlength
    simp only [List.length_nil] at hlength
    omega
  rw [takeNumber?_append width _ rest hne (padded_isDigit width n) (by simp) hr,
    ofDigitChars_padded width n hn]

theorem takeSeparator?_cons (separator : Char) (rest : List Char) (h : Text.isBlank separator = false) :
    takeSeparator? separator (separator :: rest) = some rest := by
  simp [takeSeparator?, Text.trimStart, h]

theorem takeDateEnd?_cons (rest : List Char) : takeDateEnd? ('T' :: rest) = some rest := by
  rw [takeDateEnd?, if_pos (.inl rfl)]

/-- Four digits stand alone before the hyphen. -/
theorem takeYear?_padded (n : Nat) (rest : List Char) (hn : n < 10000)
    (hr : ∀ c ∈ rest.head?, c.isDigit = false) :
    takeYear? (padded 4 n ++ rest) = some ((n : Int), rest) := by
  have hnumber := takeNumber?_padded 4 n rest (by decide) hn hr
  have hdigit := padded_isDigit 4 n
  obtain ⟨d, ds, hcons⟩ : ∃ d ds, padded 4 n = d :: ds := by
    apply List.exists_cons_of_length_pos
    rw [length_padded]; decide
  rw [hcons, List.cons_append] at hnumber ⊢
  have hd := hdigit d (hcons ▸ List.mem_cons_self)
  rw [takeYear?, trimStart_of_head _ (by
    intro c hc
    obtain rfl := Option.some.inj hc
    exact isBlank_of_isDigit d hd)]
  split
  · rename_i heq
    exact absurd (List.cons.inj heq).1 (isDigit_ne d '-' hd)
  · rename_i heq
    exact absurd (List.cons.inj heq).1 (isDigit_ne d '+' hd)
  · rw [hnumber, Option.map_some]

/-- Behind a sign there is room for any number of digits. -/
theorem takeYear?_signed (n : Nat) (rest : List Char) (negative : Bool)
    (hr : ∀ c ∈ rest.head?, c.isDigit = false) :
    takeYear? ((if negative then '-' else '+') ::
      (List.replicate (4 - (Nat.toDigits 10 n).length) '0' ++ Nat.toDigits 10 n ++ rest)) =
      some (if negative then -(n : Int) else n, rest) := by
  have hdigit : ∀ c ∈ List.replicate (4 - (Nat.toDigits 10 n).length) '0' ++ Nat.toDigits 10 n, c.isDigit := by
    intro c hc
    rcases List.mem_append.1 hc with hc | hc
    · rw [List.eq_of_mem_replicate hc]; decide
    · exact Nat.isDigit_of_mem_toDigits (by decide) (by decide) hc
  have hvalue : Nat.ofDigitChars 10
      (List.replicate (4 - (Nat.toDigits 10 n).length) '0' ++ Nat.toDigits 10 n) 0 = n := by
    rw [Nat.ofDigitChars_append, Nat.ofDigitChars_replicate_zero, Nat.mul_zero,
      Nat.ofDigitChars_ten_toDigits]
  have hne : List.replicate (4 - (Nat.toDigits 10 n).length) '0' ++ Nat.toDigits 10 n ≠ [] := by
    simp [Nat.toDigits_ne_nil]
  generalize List.replicate (4 - (Nat.toDigits 10 n).length) '0' ++ Nat.toDigits 10 n = digits at *
  have hnumber := takeNumber?_append (digits ++ rest).length digits rest hne hdigit (by simp) hr
  have hfirst : ((digits ++ rest).head?.map Char.isDigit).getD false := by
    obtain ⟨d, ds, rfl⟩ := List.exists_cons_of_ne_nil hne
    exact hdigit d List.mem_cons_self
  have hblank : Text.isBlank '-' = false ∧ Text.isBlank '+' = false := by decide
  cases negative with
  | true =>
    simp only [if_true, takeYear?]
    rw [trimStart_of_head _ (by simp [hblank])]
    simp only [hfirst, if_true, hnumber, Option.map_some, hvalue]
  | false =>
    simp only [Bool.false_eq_true, if_false, takeYear?]
    rw [trimStart_of_head _ (by simp [hblank])]
    simp only [hfirst, if_true, hnumber, Option.map_some, hvalue]

theorem takeYear?_yearText (year : Int) (rest : List Char) (hr : ∀ c ∈ rest.head?, c.isDigit = false) :
    takeYear? (yearText year ++ rest) = some (year, rest) := by
  unfold yearText
  split
  · rename_i h
    have hback : (year.toNat : Int) = year := by omega
    rw [takeYear?_padded _ rest (by omega) hr, hback]
  · have hsigned := takeYear?_signed year.natAbs rest (year < 0) hr
    have hback : (if decide (year < 0) then -(year.natAbs : Int) else year.natAbs) = year := by
      by_cases hneg : year < 0
      · rw [if_pos (decide_eq_true hneg)]
        omega
      · rw [if_neg (by simpa using hneg)]
        omega
    rw [hback] at hsigned
    simp only [decide_eq_true_eq] at hsigned
    exact hsigned

/-- A fraction is filled up to nine digits. -/
theorem takeFraction?_padded (width n : Nat) (rest : List Char) (hpos : 0 < width) (hwidth : width ≤ 9)
    (hn : n < Nat.pow 10 width) (hr : ∀ c ∈ rest.head?, c.isDigit = false) :
    takeFraction? ('.' :: padded width n ++ rest) = some (Nat.pow 10 (9 - width) * n, rest) := by
  have hd := padded_isDigit width n
  have hlength := length_padded width n
  have hvalue := ofDigitChars_padded width n hn
  have hne : padded width n ≠ [] := by
    intro hnil
    rw [hnil, List.length_nil] at hlength
    omega
  generalize padded width n = digits at *
  have hnone : ∀ c ∈ (rest.take (9 - width)).head?, c.isDigit = false := by
    intro c hc
    rw [List.head?_take] at hc
    split at hc
    · cases hc
    · exact hr c hc
  have htake : ((digits ++ rest).take 9).takeWhile Char.isDigit = digits := by
    rw [List.take_append, List.take_of_length_le (by omega), hlength]
    exact congrArg Prod.fst (takeDigits_append digits _ hd hnone)
  have hdrop : (digits ++ rest).dropWhile Char.isDigit = rest :=
    congrArg Prod.snd (takeDigits_append digits rest hd hr)
  rw [List.cons_append]
  simp only [takeFraction?, htake, hdrop, if_neg hne, hlength]
  rw [Nat.ofDigitChars_append, hvalue, Nat.ofDigitChars_replicate_zero]
  rfl

theorem takeFraction?_fractionText (nanosecond : Nat) (rest : List Char) (h : nanosecond < 1000000000)
    (hr : ∀ c ∈ rest.head?, c.isDigit = false ∧ c ≠ '.') :
    takeFraction? (fractionText nanosecond ++ rest) = some (nanosecond, rest) := by
  have hnone : ∀ c ∈ rest.head?, c.isDigit = false := fun c hc => (hr c hc).1
  unfold fractionText
  split
  · rename_i hzero
    rw [hzero, List.nil_append]
    unfold takeFraction?
    split
    · exact absurd rfl (hr '.' rfl).2
    · rfl
  split
  · rename_i hmilli
    rw [takeFraction?_padded 3 _ rest (by decide) (by decide) (by change _ < 1000; omega) hnone]
    have hback : Nat.pow 10 (9 - 3) * (nanosecond / 1000000) = nanosecond := by
      change 1000000 * _ = _
      omega
    rw [hback]
  split
  · rename_i hmicro
    rw [takeFraction?_padded 6 _ rest (by decide) (by decide) (by change _ < 1000000; omega) hnone]
    have hback : Nat.pow 10 (9 - 6) * (nanosecond / 1000) = nanosecond := by
      change 1000 * _ = _
      omega
    rw [hback]
  · rw [takeFraction?_padded 9 _ rest (by decide) (by decide) h hnone]
    have hback : Nat.pow 10 (9 - 9) * nanosecond = nanosecond := Nat.one_mul nanosecond
    rw [hback]

theorem earlier?_zero (t : Timestamp) : t.earlier? 0 = some t := by
  have hhour := t.hour_lt
  have hminute := t.minute_lt
  have hday : ((t.hour * 60 + t.minute : Nat) : Int) % 1440 = (t.hour * 60 + t.minute : Nat) := by omega
  have hback : (t.hour * 60 + t.minute) / 60 = t.hour ∧ (t.hour * 60 + t.minute) % 60 = t.minute := by omega
  simp only [earlier?, Int.sub_zero, hday, Int.toNat_natCast, hback.1, hback.2]
  rw [if_neg (by omega), if_neg (by omega)]
  simp [of?, t.hour_lt, t.minute_lt, t.second_le, t.nanosecond_lt]

theorem date_of? (d : Date) : Date.of? d.year d.month d.day = some d := by
  rw [Date.of?, dif_pos ⟨d.year_range, d.month_range, d.day_range⟩]

theorem day_lt (d : Date) : d.day < 100 := by
  have h := d.day_range
  unfold daysInMonth at h
  split at h
  · split at h <;> omega
  · split at h <;> omega

/-- A number of two digits ends where no digit follows. -/
theorem takeNumber?_two (n : Nat) (c : Char) (rest : List Char) (hn : n < 100) (hc : c.isDigit = false) :
    takeNumber? 2 (padded 2 n ++ c :: rest) = some (n, c :: rest) := by
  refine takeNumber?_padded 2 n _ (by decide) hn fun d hd => ?_
  obtain rfl := Option.some.inj hd
  exact hc

theorem head_fractionText_append (nanosecond : Nat) :
    ∀ c ∈ (fractionText nanosecond ++ ['Z']).head?, c.isDigit = false := by
  unfold fractionText
  split
  · simp
  split
  · simp
  split <;> simp

theorem ofText?_text (t : Timestamp) : ofText? t.text = some t := by
  have hmonth := t.date.month_range
  have hday := day_lt t.date
  have hhour := t.hour_lt
  have hminute := t.minute_lt
  have hsecond := t.second_le
  have hhyphen : Text.isBlank '-' = false := by decide
  have hcolon : Text.isBlank ':' = false := by decide
  have hend := takeFraction?_fractionText t.nanosecond ['Z'] t.nanosecond_lt (by
    intro c hc
    obtain rfl := Option.some.inj hc
    decide)
  have hzone : takeZone? (Text.trimStart ['Z']) = some (0, []) := by decide
  have hmoment : of? t.date t.hour t.minute t.second t.nanosecond = some t := by
    simp [of?, t.hour_lt, t.minute_lt, t.second_le, t.nanosecond_lt]
  have htext : t.text.toList = yearText t.date.year ++ '-' :: (padded 2 t.date.month ++
      '-' :: (padded 2 t.date.day ++ 'T' :: (padded 2 t.hour ++ ':' :: (padded 2 t.minute ++
        ':' :: (padded 2 t.second ++ (fractionText t.nanosecond ++ ['Z'])))))) := by
    simp [text]
  rw [ofText?, htext]
  refine Option.bind_eq_some_iff.2 ⟨_, takeYear?_yearText _ _ (by simp), ?_⟩
  refine Option.bind_eq_some_iff.2 ⟨_, takeSeparator?_cons _ _ hhyphen, ?_⟩
  refine Option.bind_eq_some_iff.2 ⟨_, takeNumber?_two t.date.month '-' _ (by omega) rfl, ?_⟩
  refine Option.bind_eq_some_iff.2 ⟨_, takeSeparator?_cons _ _ hhyphen, ?_⟩
  refine Option.bind_eq_some_iff.2 ⟨_, takeNumber?_two t.date.day 'T' _ hday rfl, ?_⟩
  refine Option.bind_eq_some_iff.2 ⟨_, takeDateEnd?_cons _, ?_⟩
  refine Option.bind_eq_some_iff.2 ⟨_, takeNumber?_two t.hour ':' _ (by omega) rfl, ?_⟩
  refine Option.bind_eq_some_iff.2 ⟨_, takeSeparator?_cons _ _ hcolon, ?_⟩
  refine Option.bind_eq_some_iff.2 ⟨_, takeNumber?_two t.minute ':' _ (by omega) rfl, ?_⟩
  refine Option.bind_eq_some_iff.2 ⟨_, takeSeparator?_cons _ _ hcolon, ?_⟩
  refine Option.bind_eq_some_iff.2 ⟨_, takeNumber?_padded 2 t.second _ (by decide)
    (show t.second < 100 by omega) (head_fractionText_append t.nanosecond), ?_⟩
  refine Option.bind_eq_some_iff.2 ⟨_, hend, ?_⟩
  refine Option.bind_eq_some_iff.2 ⟨_, hzone, ?_⟩
  refine (if_neg (not_not_intro rfl)).trans ?_
  refine Option.bind_eq_some_iff.2 ⟨_, date_of? t.date, ?_⟩
  refine Option.bind_eq_some_iff.2 ⟨_, hmoment, ?_⟩
  exact t.earlier?_zero

end CardIndex.Timestamp
