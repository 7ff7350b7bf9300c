import CardIndex.Enrichment
import CardIndex.Proofs.Binary64.Exactness
import CardIndex.Proofs.Cell
import CardIndex.Proofs.Cost
import CardIndex.Proofs.Json.Parser
import Mathlib.Data.Nat.Cast.Field

namespace CardIndex

namespace Binary64

/-- The value with its sign. -/
def signed (x : Binary64) : ℚ := if x.negative then -x.value else x.value

theorem abs_signed (x : Binary64) : |x.signed| = x.value := by
  have hpos : 0 ≤ x.value := by
    rw [value]
    positivity
  unfold signed
  split
  · rw [abs_neg, abs_of_nonneg hpos]
  · exact abs_of_nonneg hpos

theorem value_eq_ratio (x : Binary64) : x.value = (x.ratio.1 : ℚ) / x.ratio.2 := by
  have hz := zpow_eq_div 2 (by decide) x.unit
  rw [Nat.cast_ofNat] at hz
  rw [value, hz, ratio, Nat.cast_mul, mul_div_assoc]

theorem integer?_eq_some_iff (x : Binary64) (k : Int) : x.integer? = some k ↔ x.signed = k := by
  have habs := x.abs_signed
  have hvalue := x.value_eq_ratio
  have hden : 0 < x.ratio.2 := Nat.pow_pos (by decide)
  unfold integer?
  generalize x.ratio = ratio at hvalue hden ⊢
  obtain ⟨num, den⟩ := ratio
  dsimp only at hvalue hden ⊢
  have hd : (den : ℚ) ≠ 0 := by exact_mod_cast hden.ne'
  by_cases hwhole : num % den = 0
  · rw [← Nat.cast_div (Nat.dvd_of_mod_eq_zero hwhole) hd] at hvalue
    rw [if_pos hwhole, Option.some_inj, signed, hvalue]
    split
    · rw [← Int.cast_inj (α := ℚ), Int.cast_neg, Int.cast_natCast]
    · rw [← Int.cast_inj (α := ℚ), Int.cast_natCast]
  · rw [if_neg hwhole]
    constructor
    · rintro ⟨⟩
    · intro hk
      rw [hk, hvalue, ← Int.cast_abs, ← Nat.cast_natAbs, eq_div_iff hd] at habs
      have hnum : k.natAbs * den = num := by exact_mod_cast habs
      exact absurd (hnum ▸ Nat.mul_mod_left k.natAbs den) hwhole

end Binary64

namespace Json

/-- The text of a numeral is read as a number cell, if its number is finite. -/
theorem Value.ofText?_text (n : Numeral) :
    Value.ofText? (String.ofList n.text) = (Number.ofNumeral? n.reread).map Value.number := by
  have hlexes : Lexer.tokens? n.text = some [.number n.reread] := (Lexer.lexes_number (numberText_text n)).tokens?
  rw [Value.ofText?, Tree.ofTextWithin?, String.toList_ofList, hlexes]
  rfl

/-- A decimal is never written with digits alone. -/
theorem Numeral.exists_not_isDigit (negative : Bool) (significand : Nat) (exponent : Int) :
    ∃ c ∈ (decimal negative significand exponent).text, ¬ c.isDigit := by
  obtain ⟨whole, fraction, mark, hspell, htext, hgives⟩ := spelling_magnitudeText significand exponent
  have hrest : ∃ c ∈ pointed fraction ++ mark, ¬ c.isDigit := by
    cases fraction with
    | cons f fs => exact ⟨'.', by simp [pointed], by decide⟩
    | nil =>
      cases mark with
      | cons c cs =>
        exact ⟨c, by simp [pointed], by simp [hspell.mark_isDigit c rfl]⟩
      | nil => exact absurd ⟨rfl, rfl⟩ hgives.not_integer
  obtain ⟨c, hmem, hc⟩ := hrest
  rw [text, htext]
  exact ⟨c, List.mem_append_right _ (List.mem_append_right _ hmem), hc⟩

end Json

namespace Cost

open Text

theorem isDecimalDigit_of_isDigit {c : Char} (h : c.isDigit) : isDecimalDigit c := by
  have hrange := Char.isDigit_iff_toNat.1 h
  have hlt : c.val < 128 := UInt32.lt_iff_toNat_lt.2 (Nat.lt_of_le_of_lt hrange.2 (by decide))
  rw [isDecimalDigit, if_pos hlt, h]

/-- Digits alone are a cost of that energy, if 64 bits hold it. -/
theorem ofText_repr {n : Nat} (h : n < UInt64.size) : ofText n.repr = ⟨some n, [], some n.repr⟩ := by
  have hdigits : ∀ c ∈ n.repr.toList, c.isDigit := by
    rw [Nat.toList_repr]
    exact Json.Numeral.naturalText_isDigit n
  have henergy : energyOf n.repr.toList = some n := by
    have hne : n.repr.toList ≠ [] := by simp
    obtain ⟨c, cs, hcs⟩ := List.exists_cons_of_ne_nil hne
    have hc : c ∈ n.repr.toList := hcs ▸ List.mem_cons_self
    have hall : n.repr.toList.filter isDecimalDigit = n.repr.toList :=
      List.filter_eq_self.2 fun d hd => isDecimalDigit_of_isDigit (hdigits d hd)
    refine (energyOf_eq_some_iff _ n).2 ⟨⟨c, hc, isDecimalDigit_of_isDigit (hdigits c hc)⟩, fun d hd _ => hdigits d hd,
      ?_, h⟩
    rw [hall, Nat.toList_repr, Nat.ofDigitChars_ten_toDigits]
  have hsymbols : bracketedCapitals n.repr.toList = [] := by
    rw [List.eq_nil_iff_forall_not_mem]
    intro c hc
    have hin := (((scan_bracketedCapitals n.repr.toList).mem_iff c).1 hc).2
    exact absurd (hdigits '[' (hin.subset List.mem_cons_self)) (by decide)
  rw [ofText, henergy, hsymbols, if_neg Nat.repr_ne_empty]
  rfl

end Cost

namespace Cell

open Json

theorem numberText_integer (n : Nat) : numberText (.integer n) = n.repr.toList := by
  rw [Nat.toList_repr]
  rfl

theorem numberText_float {x : Binary64} {n : Nat} (h : x.signed = n) :
    numberText (.float x) = if n < 2 ^ 63 then n.repr.toList else (Number.float x).numeral.text := by
  have hinteger : x.integer? = some (n : Int) := (x.integer?_eq_some_iff n).2 (by exact_mod_cast h)
  have hlimit : (((n : Int).natAbs : Int) ≤ Int64.maxValue.toInt) = (n < 2 ^ 63) := by
    have hmax : Int64.maxValue.toInt = 2 ^ 63 - 1 := rfl
    rw [hmax, eq_iff_iff]
    omega
  unfold numberText
  simp only [hinteger, hlimit]
  split
  · exact numberText_integer n
  · rfl

/-- The cell reads as the digits of a number and, where it is a cost, as a cost of that energy without symbols. -/
structure Plain (cell : Value) (n : Nat) : Prop where
  text : Cell.text cell = n.repr
  cost : ∀ (row : Row) (position : Nat), row.get ["cost"] = cell →
    (Card.ofRow row position).cost = ⟨some n, [], some n.repr⟩

theorem Plain.of_text {cell : Value} {n : Nat} (hn : n < UInt64.size) (h : Cell.text cell = n.repr) :
    Plain cell n := by
  constructor
  case text => exact h
  case cost =>
    rintro row position rfl
    rw [Card.ofRow, h, Cost.ofText_repr hn]

theorem plain_string {n : Nat} (hn : n < UInt64.size) : Plain (.string n.repr) n := by
  apply Plain.of_text hn
  apply text_string
  rw [Nat.toList_repr]
  exact trimmed_numberText (.integer n)

theorem plain_integer {n : Nat} (hn : n < UInt64.size) : Plain (.number (.integer n)) n := by
  apply Plain.of_text hn
  rw [text, numberText_integer, String.ofList_toList]

theorem plain_float_iff {n : Nat} (hn : n < UInt64.size) {x : Binary64} (h : x.signed = n) :
    Plain (.number (.float x)) n ↔ n < 2 ^ 63 := by
  have htext := numberText_float h
  constructor
  · intro hplain
    by_contra hlarge
    rw [if_neg hlarge] at htext
    have hdigits := hplain.text
    rw [text, htext, ← String.toList_inj, String.toList_ofList, Nat.toList_repr] at hdigits
    obtain ⟨negative, significand, exponent, hnumeral, -⟩ := Numeral.exists_ofBinary64 x
    obtain ⟨c, hmem, hc⟩ := Numeral.exists_not_isDigit negative significand exponent
    rw [← hnumeral] at hmem
    have hdigit : c ∈ Nat.toDigits 10 n := by
      rw [← hdigits]
      exact hmem
    exact hc (Numeral.naturalText_isDigit n c hdigit)
  · intro hsmall
    rw [if_pos hsmall] at htext
    apply Plain.of_text hn
    rw [text, htext, String.ofList_toList]

/-- Digits of a number of 64 bits are read as an integer. -/
theorem ofText?_repr {n : Nat} (hn : n < UInt64.size) : Value.ofText? n.repr = some (.number (.integer n)) := by
  have hread := Value.ofText?_text (.integer n)
  have hlow : Int64.minValue.toInt ≤ n := Int.le_trans (by decide) (Int.natCast_nonneg n)
  rw [Numeral.reread_integer n hlow (by exact_mod_cast hn)] at hread
  exact hread

/-- Whatever cell has a natural number of 64 bits, its digits are read from it: a text cell, an integer, or a float
that is the number, unless the number is too large for 63 bits. -/
theorem numberCell_plain (n : Nat) (hn : n < UInt64.size) :
    Plain (.string n.repr) n ∧ Plain (.number (.integer n)) n ∧
      Value.ofText? n.repr = some (.number (.integer n)) ∧
        ∀ x : Binary64, x.signed = n → (Plain (.number (.float x)) n ↔ n < 2 ^ 63) :=
  ⟨plain_string hn, plain_integer hn, ofText?_repr hn, fun _ hx => plain_float_iff hn hx⟩

/-- The largest float of 63 bits. -/
def edge : Binary64 := ⟨false, 1086 * Binary64.fractionSize - 1, by decide⟩

theorem numberCell_plain_edge : 9223372036854774784 < UInt64.size ∧ edge.signed = (9223372036854774784 : Nat) ∧
    Plain (.number (.float edge)) 9223372036854774784 := by
  have hedge : edge.signed = (9223372036854774784 : Nat) := by
    exact_mod_cast (edge.integer?_eq_some_iff 9223372036854774784).1 (by decide +kernel)
  exact ⟨by decide, hedge, ((numberCell_plain _ (by decide)).2.2.2 edge hedge).2 (by decide)⟩

/-- The float behind it. -/
def pastEdge : Binary64 := ⟨false, 1086 * Binary64.fractionSize, by decide⟩

/-- It is written with an exponent, whose digits a cost takes for digits of its energy. And below it there are numbers
that are not plain because reading rounds them: with a point behind it, 2 ^ 53 - 1 is read as the number before. -/
theorem floatCell_not_plain :
    (Value.ofText? "9223372036854775808.0" = some (.number (.float pastEdge)) ∧
      pastEdge.signed = (9223372036854775808 : Nat) ∧ 9223372036854775808 < UInt64.size ∧
        Cell.text (.number (.float pastEdge)) = "9.223372036854776e+18" ∧
          (Cost.ofText (Cell.text (.number (.float pastEdge)))).energy = some 922337203685477618 ∧
            ¬ Plain (.number (.float pastEdge)) 9223372036854775808) ∧
      (Value.ofText? "9007199254740991.0").map Cell.text = some "9007199254740990" := by
  have htree : Tree.ofTextWithin? Value.depthLimit "9223372036854775808.0" =
      some (.number (.decimal false 9223372036854775808 0)) := by rfl
  have hnumber : Number.ofNumeral? (.decimal false 9223372036854775808 0) = some (.float pastEdge) := by
    decide +kernel
  have hread : Value.ofText? "9223372036854775808.0" = some (.number (.float pastEdge)) := by
    rw [Value.ofText?, htree, Option.bind_some, Value.ofTree?, hnumber]
    rfl
  have hsigned : pastEdge.signed = (9223372036854775808 : Nat) := by
    exact_mod_cast (pastEdge.integer?_eq_some_iff 9223372036854775808).1 (by decide +kernel)
  have htext : Cell.text (.number (.float pastEdge)) = "9.223372036854776e+18" := by decide +kernel
  have henergy : (Cost.ofText "9.223372036854776e+18").energy = some 922337203685477618 := by decide +kernel
  have hplain : ¬ Plain (.number (.float pastEdge)) 9223372036854775808 := fun hplain =>
    absurd ((plain_float_iff (by decide) hsigned).1 hplain) (by decide)
  exact ⟨⟨hread, hsigned, by decide, htext, htext.symm ▸ henergy, hplain⟩, by decide +kernel⟩

end Cell

end CardIndex
