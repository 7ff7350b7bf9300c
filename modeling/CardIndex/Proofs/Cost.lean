import CardIndex.Cost
import CardIndex.Proofs.Distinct
import CardIndex.Proofs.Text.Splitting

namespace CardIndex.Cost

open Text

theorem le_ofDigitChars (digits : List Char) (n : Nat) : n ≤ Nat.ofDigitChars 10 digits n := by
  rw [Nat.ofDigitChars_eq_ofDigitChars_zero]
  have hpos : 0 < 10 ^ digits.length := Nat.pow_pos (by decide)
  exact Nat.le_trans (Nat.le_mul_of_pos_left n hpos) (Nat.le_add_right _ _)

theorem appendDigit_of_fits {n : Nat} {c : Char} (hc : c.isDigit)
    (h : 10 * n + (c.toNat - '0'.toNat) < UInt64.size) :
    appendDigit n c = some (10 * n + (c.toNat - '0'.toNat)) := by
  rw [Nat.mul_comm] at h ⊢
  unfold appendDigit
  dsimp only
  rw [if_pos ((Bool.and_eq_true _ _).mpr ⟨hc, decide_eq_true h⟩)]

theorem appendDigit_eq_none {n : Nat} {c : Char}
    (h : ¬ (c.isDigit ∧ 10 * n + (c.toNat - '0'.toNat) < UInt64.size)) : appendDigit n c = none := by
  rw [Nat.mul_comm] at h
  unfold appendDigit
  dsimp only
  rw [if_neg]
  rw [Bool.and_eq_true, decide_eq_true_eq]
  exact h

/-- Digits go on where they are ASCII and 64 bits hold the whole number; then they hold its beginnings, too. -/
theorem foldlM_appendDigit_iff (digits : List Char) {n : Nat} (hn : n < UInt64.size) (v : Nat) :
    digits.foldlM appendDigit n = some v ↔
      (∀ c ∈ digits, c.isDigit) ∧ Nat.ofDigitChars 10 digits n = v ∧ v < UInt64.size := by
  induction digits generalizing n with
  | nil =>
    rw [List.foldlM_nil, Nat.ofDigitChars_nil]
    constructor
    · intro h
      obtain rfl := Option.some.inj h
      exact ⟨List.forall_mem_nil _, rfl, hn⟩
    · rintro ⟨-, rfl, -⟩
      rfl
  | cons c digits ih =>
    rw [List.foldlM_cons, Nat.ofDigitChars_cons, List.forall_mem_cons]
    by_cases h : c.isDigit ∧ 10 * n + (c.toNat - '0'.toNat) < UInt64.size
    · rw [appendDigit_of_fits h.1 h.2, Option.bind_eq_bind, Option.bind_some, ih h.2]
      simp only [h.1, true_and]
    · rw [appendDigit_eq_none h]
      constructor
      · rintro ⟨⟩
      · rintro ⟨⟨hc, -⟩, rfl, hv⟩
        exact absurd ⟨hc, Nat.lt_of_le_of_lt (le_ofDigitChars _ _) hv⟩ h

theorem energyOf_eq_some_iff (text : List Char) (v : Nat) :
    energyOf text = some v ↔ (∃ c ∈ text, isDecimalDigit c) ∧ (∀ c ∈ text, isDecimalDigit c → c.isDigit) ∧
      Nat.ofDigitChars 10 (text.filter isDecimalDigit) 0 = v ∧ v < UInt64.size := by
  have hall : (∀ c ∈ text, isDecimalDigit c → c.isDigit) ↔ ∀ c ∈ text.filter isDecimalDigit, c.isDigit := by
    simp [List.mem_filter]
  rw [hall, energyOf]
  cases hdigits : text.filter isDecimalDigit with
  | nil =>
    rw [List.filter_eq_nil_iff] at hdigits
    constructor
    · rintro ⟨⟩
    · rintro ⟨⟨c, hmem, hc⟩, -⟩
      exact absurd hc (hdigits c hmem)
  | cons c digits =>
    have hfirst : c ∈ text.filter isDecimalDigit := hdigits ▸ List.mem_cons_self
    have hsome : ∃ c ∈ text, isDecimalDigit c := ⟨c, List.mem_filter.1 hfirst⟩
    rw [foldlM_appendDigit_iff _ (Nat.two_pow_pos 64)]
    exact (and_iff_right hsome).symm

theorem energyOf_lt (text : List Char) : ∀ n ∈ energyOf text, n < UInt64.size := by
  intro n hn
  exact ((energyOf_eq_some_iff text n).1 hn).2.2.2

/-- The longest runs of decimal digits. -/
def digitGroups (text : List Char) : List (List Char) := (text.splitOnP (!isDecimalDigit ·)).filter (· ≠ [])

theorem flatten_digitGroups (text : List Char) : (digitGroups text).flatten = text.filter isDecimalDigit := by
  rw [digitGroups, List.flatten_filter_ne_nil]
  induction text using split_induction (!isDecimalDigit ·) with
  | last group h =>
    have hall : group.filter isDecimalDigit = group := List.filter_eq_self.2 fun c hc => by simpa using h c hc
    rw [List.splitOnP_eq_singleton h, List.flatten_singleton, hall]
  | more group c rest h hc ih =>
    have hall : group.filter isDecimalDigit = group := List.filter_eq_self.2 fun c hc => by simpa using h c hc
    rw [List.splitOnP_append_cons_of_forall_mem h c hc, List.flatten_cons, ih, List.filter_append, hall,
      List.filter_cons_of_neg (by simpa using hc)]

/-- A capital in brackets. -/
def symbolText (c : Char) : List Char := ['[', c, ']']

/-- What a search from left to right finds that goes on behind each capital in brackets. -/
inductive Scan : List Char → List Char → Prop
  | done : Scan [] []
  | found {c : Char} {rest capitals : List Char} (hc : c.isUpper) (h : Scan rest capitals) :
      Scan (symbolText c ++ rest) (c :: capitals)
  | skip {c : Char} {rest capitals : List Char} (hc : ∀ d, d.isUpper → ¬ symbolText d <+: c :: rest)
      (h : Scan rest capitals) : Scan (c :: rest) capitals

theorem ne_bracket_of_isUpper {c : Char} (h : c.isUpper) : c ≠ '[' ∧ c ≠ ']' := by
  constructor
  · rintro rfl
    exact absurd h (by decide)
  · rintro rfl
    exact absurd h (by decide)

theorem bracketedCapitals_symbolText {c : Char} (h : c.isUpper) (rest : List Char) :
    bracketedCapitals (symbolText c ++ rest) = c :: bracketedCapitals rest := by
  have hopen := (ne_bracket_of_isUpper h).1
  have hinner : bracketedCapitals (c :: ']' :: rest) = bracketedCapitals rest := by
    simp [bracketedCapitals, hopen]
  simp only [symbolText, List.cons_append, List.nil_append]
  rw [bracketedCapitals, if_pos h, hinner]

theorem bracketedCapitals_cons {c : Char} {cs : List Char} (h : ∀ d, d.isUpper → ¬ symbolText d <+: c :: cs) :
    bracketedCapitals (c :: cs) = bracketedCapitals cs := by
  by_cases hbrackets : ∃ d after, c = '[' ∧ cs = d :: ']' :: after
  · obtain ⟨d, after, rfl, rfl⟩ := hbrackets
    have hd : ¬ d.isUpper := fun hd => h d hd (List.prefix_append (symbolText d) after)
    rw [bracketedCapitals, if_neg hd]
  · rw [bracketedCapitals]
    exact fun d after hc hcs => hbrackets ⟨d, after, hc, hcs⟩

/-- No capital is lost by going on behind the brackets of the one before. -/
theorem scan_bracketedCapitals (text : List Char) : Scan text (bracketedCapitals text) := by
  match text with
  | [] => exact .done
  | c :: cs =>
    by_cases h : ∃ d, d.isUpper ∧ symbolText d <+: c :: cs
    · obtain ⟨d, hd, rest, htext⟩ := h
      have hshorter := congrArg List.length htext
      rw [← htext, bracketedCapitals_symbolText hd]
      exact .found hd (scan_bracketedCapitals rest)
    · have hnone : ∀ d, d.isUpper → ¬ symbolText d <+: c :: cs := fun d hd hbegins => h ⟨d, hd, hbegins⟩
      rw [bracketedCapitals_cons hnone]
      exact .skip hnone (scan_bracketedCapitals cs)
termination_by text.length
decreasing_by
  · simp only [symbolText, List.length_append, List.length_cons] at hshorter ⊢
    omega
  · exact Nat.lt_succ_self _

/-- A search finds each capital that stands in brackets somewhere. -/
theorem Scan.mem_iff {text capitals : List Char} (h : Scan text capitals) (d : Char) :
    d ∈ capitals ↔ d.isUpper ∧ symbolText d <:+: text := by
  induction h with
  | done => simp [symbolText]
  | @found c rest capitals hc h ih =>
    rw [List.mem_cons, ih]
    constructor
    · rintro (rfl | ⟨hd, hin⟩)
      · exact ⟨hc, (List.prefix_append _ _).isInfix⟩
      · exact ⟨hd, hin.trans (List.suffix_append _ _).isInfix⟩
    · rintro ⟨hd, hin⟩
      obtain ⟨hopen, -⟩ := ne_bracket_of_isUpper hc
      simp only [symbolText, List.cons_append, List.nil_append, List.infix_cons_iff, List.cons_prefix_cons] at hin
      rcases hin with ⟨-, rfl, -⟩ | ⟨rfl, -⟩ | ⟨hbracket, -⟩ | hin
      · exact .inl rfl
      · exact absurd rfl hopen
      · exact absurd hbracket (by decide)
      · exact .inr ⟨hd, hin⟩
  | @skip c rest capitals hc h ih =>
    rw [ih, List.infix_cons_iff]
    constructor
    · rintro ⟨hd, hin⟩
      exact ⟨hd, .inr hin⟩
    · rintro ⟨hd, hbegins | hin⟩
      · exact absurd hbegins (hc d hd)
      · exact ⟨hd, hin⟩

theorem Scan.exists_front {text front : List Char} {capitals : List Char} (h : Scan text capitals)
    (hfront : front <+: capitals) : ∃ part, part <+: text ∧ Scan part front := by
  induction h generalizing front with
  | done =>
    obtain rfl := List.prefix_nil.1 hfront
    exact ⟨[], List.prefix_refl _, .done⟩
  | @found c rest capitals hc h ih =>
    rcases List.prefix_cons_iff.1 hfront with rfl | ⟨more, rfl, hmore⟩
    · exact ⟨[], List.nil_prefix, .done⟩
    · obtain ⟨part, hpart, hscan⟩ := ih hmore
      exact ⟨symbolText c ++ part, (List.prefix_append_right_inj _).2 hpart, .found hc hscan⟩
  | @skip c rest capitals hc h ih =>
    obtain ⟨part, hpart, hscan⟩ := ih hfront
    have hwhole : c :: part <+: c :: rest := List.cons_prefix_cons.2 ⟨rfl, hpart⟩
    exact ⟨c :: part, hwhole, .skip (fun d hd hbegins => hc d hd (hbegins.trans hwhole)) hscan⟩

/-- The symbol stands in brackets somewhere in the text. -/
def Shows (text : List Char) (symbol : String) : Prop := '[' :: (symbol.toList ++ [']']) <:+: text

theorem mem_symbols_iff {text capitals : List Char} (h : Scan text capitals) (symbol : String) :
    symbol ∈ capitals.map (fun c => c.toString) ↔
      (∃ c : Char, c.isUpper ∧ symbol = c.toString) ∧ Shows text symbol := by
  have hshows (c : Char) : Shows text c.toString ↔ symbolText c <:+: text := by
    rw [Shows, Char.toString_eq_singleton, String.toList_singleton]
    rfl
  rw [List.mem_map]
  constructor
  · rintro ⟨c, hc, rfl⟩
    obtain ⟨hupper, hin⟩ := (h.mem_iff c).1 hc
    exact ⟨⟨c, hupper, rfl⟩, (hshows c).2 hin⟩
  · rintro ⟨⟨c, hupper, rfl⟩, hin⟩
    exact ⟨c, (h.mem_iff c).2 ⟨hupper, (hshows c).1 hin⟩, rfl⟩

/-- What a cost has of the string that it is read from. -/
structure ReadFrom (raw : String) (cost : Cost) : Prop where
  /-- All digits in order spell the energy. There is one if there are digits, if they are ASCII and if 64 bits hold
  it. -/
  energy : ∀ v, cost.energy = some v ↔
    (∃ c ∈ raw.toList, isDecimalDigit c) ∧ (∀ c ∈ raw.toList, isDecimalDigit c → c.isDigit) ∧
      Nat.ofDigitChars 10 (raw.toList.filter isDecimalDigit) 0 = v ∧ v < UInt64.size
  /-- These digits are what the longest runs of digits are together. -/
  digits : (digitGroups raw.toList).flatten = raw.toList.filter isDecimalDigit
  symbols : ∀ symbol, symbol ∈ cost.powerSymbols ↔
    (∃ c : Char, c.isUpper ∧ symbol = c.toString) ∧ Shows raw.toList symbol
  nodup : cost.powerSymbols.Nodup
  /-- A symbol that stands before another is in the string, in brackets, where the other has not come yet. -/
  ordered : cost.powerSymbols.Pairwise fun symbol other =>
    ∃ front, front <+: raw.toList ∧ Shows front symbol ∧ ¬ Shows front other
  /-- The symbols are found from left to right, with no brackets looked at twice. -/
  scanned : ∃ capitals, Scan raw.toList capitals ∧ cost.powerSymbols = distinct (capitals.map fun c => c.toString)
  raw : cost.raw = if raw = "" then none else some raw

theorem ofText_readFrom (raw : String) : ReadFrom raw (ofText raw) := by
  have hscan := scan_bracketedCapitals raw.toList
  have hsymbols : ∀ symbol, symbol ∈ (ofText raw).powerSymbols ↔
      (∃ c : Char, c.isUpper ∧ symbol = c.toString) ∧ Shows raw.toList symbol := by
    intro symbol
    rw [ofText, mem_distinct, mem_symbols_iff hscan]
  constructor
  case energy => exact energyOf_eq_some_iff raw.toList
  case digits => exact flatten_digitGroups raw.toList
  case symbols => exact hsymbols
  case nodup => exact nodup_distinct _
  case ordered =>
    refine List.Pairwise.imp_of_mem ?_ (pairwise_distinct _)
    rintro symbol other - hother ⟨found, hfound, hsymbol, hnot⟩
    obtain ⟨capitals, hcapitals, rfl⟩ := List.prefix_map_iff.1 hfound
    obtain ⟨front, hfront, hpart⟩ := hscan.exists_front hcapitals
    refine ⟨front, hfront, ((mem_symbols_iff hpart symbol).1 hsymbol).2, fun hshows => hnot ?_⟩
    exact (mem_symbols_iff hpart other).2 ⟨((hsymbols other).1 hother).1, hshows⟩
  case scanned => exact ⟨_, hscan, rfl⟩
  case raw => rfl

example : ofText "[[B]]0[A]1[B]2" = ⟨some 12, ["B", "A"], some "[[B]]0[A]1[B]2"⟩ := by decide +kernel

end CardIndex.Cost
