import CardIndex.Binary64.Shortest
import CardIndex.Json.Numeral
import Mathlib.Algebra.Order.Field.Power
import Mathlib.Algebra.Order.Field.Rat
import Mathlib.Tactic.FieldSimp
import Mathlib.Tactic.Linarith
import Mathlib.Tactic.NormNum
import Mathlib.Tactic.Positivity
import Mathlib.Tactic.Ring

namespace CardIndex

theorem zpow_eq_div (b : Nat) (hb : 0 < b) (e : Int) :
    (b : ℚ) ^ e = (Nat.pow b e.toNat : Nat) / (Nat.pow b (-e).toNat : Nat) := by
  have hne : (b : ℚ) ≠ 0 := by exact_mod_cast hb.ne'
  rcases Int.le_total 0 e with h | h
  · obtain ⟨n, rfl⟩ := Int.eq_ofNat_of_zero_le h
    simp
  · obtain ⟨n, hn⟩ := Int.eq_ofNat_of_zero_le (Int.neg_nonneg_of_nonpos h)
    obtain rfl : e = -(n : Int) := by omega
    simp

namespace Decimal

/-- The absolute value. -/
def value (d : Decimal) : ℚ := d.mantissa * 10 ^ d.exponent

theorem value_reduce (mantissa : Nat) (exponent : Int) :
    ((reduce mantissa exponent).1 : ℚ) * 10 ^ (reduce mantissa exponent).2 = mantissa * 10 ^ exponent := by
  fun_induction reduce mantissa exponent with
  | case1 exponent => simp
  | case2 mantissa exponent hne hten ih =>
    have hsplit : (mantissa : ℚ) = (mantissa / 10 : Nat) * 10 := by
      exact_mod_cast (Nat.div_mul_cancel (Nat.dvd_of_mod_eq_zero hten)).symm
    rw [ih, zpow_add_one₀ (by norm_num), hsplit]
    ring
  | case3 mantissa exponent hne hten => rfl

theorem value_ofScaled (negative : Bool) (mantissa : Nat) (exponent : Int) :
    (ofScaled negative mantissa exponent).value = mantissa * 10 ^ exponent :=
  value_reduce mantissa exponent

theorem reduce_mul_ten (mantissa : Nat) (exponent : Int) :
    reduce (mantissa * 10) exponent = reduce mantissa (exponent + 1) := by
  by_cases h : mantissa = 0
  · subst h
    rw [reduce, reduce]
    rfl
  · rw [reduce, dif_neg (by omega), if_pos (by omega), Nat.mul_div_cancel _ (by decide)]

theorem reduce_mul_pow (mantissa : Nat) (exponent : Int) (n : Nat) :
    reduce (mantissa * 10 ^ n) exponent = reduce mantissa (exponent + n) := by
  induction n generalizing exponent with
  | zero => simp
  | succ n ih =>
    rw [Nat.pow_succ, ← Nat.mul_assoc, reduce_mul_ten, ih]
    congr 1
    omega

theorem reduce_reduce (mantissa : Nat) (exponent : Int) :
    reduce (reduce mantissa exponent).1 (reduce mantissa exponent).2 = reduce mantissa exponent := by
  fun_induction reduce mantissa exponent with
  | case1 exponent => rw [reduce, dif_pos rfl]
  | case2 mantissa exponent hne hten ih => exact ih
  | case3 mantissa exponent hne hten => rw [reduce, dif_neg hne, if_neg hten]

/-- The one form that `ofScaled` gives a number. -/
def Reduced (d : Decimal) : Prop := ofScaled d.negative d.mantissa d.exponent = d

theorem reduced_ofScaled (negative : Bool) (mantissa : Nat) (exponent : Int) :
    (ofScaled negative mantissa exponent).Reduced := by
  simp only [Reduced, ofScaled, reduce_reduce]

end Decimal

namespace Binary64

/-- The absolute value. -/
def value (x : Binary64) : ℚ := x.significand * 2 ^ x.unit

/-- Either the leading bit is there, or the grid is the finest. -/
theorem significand_unit (x : Binary64) : x.significand < 2 ^ 53 ∧
    (2 ^ 52 ≤ x.significand ∧ -1074 ≤ x.unit ∨ x.significand < 2 ^ 52 ∧ x.unit = -1074) ∧ x.unit ≤ 971 := by
  have hfinite := x.finite
  simp only [significand, unit, fractionSize] at *
  split <;> omega

theorem magnitude_eq (x : Binary64) : x.magnitude = (x.unit + 1074).toNat * fractionSize + x.significand := by
  simp only [significand, unit, fractionSize]
  split <;> omega

theorem significand_pos (x : Binary64) (h : x.magnitude ≠ 0) : 0 < x.significand := by
  simp only [significand, fractionSize]
  split <;> omega

theorem nearest_mul (n den : Nat) (h : 0 < den) : nearest (n * den) den = n := by
  have hrest : n * den % den = 0 := Nat.mul_mod_left n den
  have hwhole : n * den / den = n := Nat.mul_div_cancel n h
  simp [nearest, hrest, hwhole, h]

/-- A ratio lies between two powers of two that its logarithms give. -/
theorem exists_roundingUnit (num den : Nat) (hnum : 0 < num) (hden : 0 < den) :
    ∃ l : Int, roundingUnit num den = max (l - 52) (-1074) ∧ (2 : ℚ) ^ l ≤ num / den ∧
      (num / den : ℚ) < 2 ^ (l + 1) := by
  have hd : (0 : ℚ) < den := by exact_mod_cast hden
  have hnumLow : (2 : ℚ) ^ (num.log2 : Int) ≤ num := by exact_mod_cast Nat.log2_self_le hnum.ne'
  have hnumHigh : (num : ℚ) < 2 ^ ((num.log2 : Int) + 1) := by exact_mod_cast Nat.lt_log2_self
  have hdenLow : (2 : ℚ) ^ (den.log2 : Int) ≤ den := by exact_mod_cast Nat.log2_self_le hden.ne'
  have hdenHigh : (den : ℚ) < 2 ^ ((den.log2 : Int) + 1) := by exact_mod_cast Nat.lt_log2_self
  unfold roundingUnit
  generalize hk : (num.log2 : Int) - den.log2 = k
  have hreach : den * Nat.pow 2 k.toNat ≤ num * Nat.pow 2 (-k).toNat ↔ (2 : ℚ) ^ k ≤ num / den := by
    have hpow : (0 : ℚ) < (Nat.pow 2 (-k).toNat : Nat) := by exact_mod_cast Nat.pow_pos (by decide)
    have hz := zpow_eq_div 2 (by decide) k
    rw [Nat.cast_ofNat] at hz
    rw [hz, div_le_div_iff₀ hpow hd, mul_comm (Nat.pow 2 k.toNat : ℚ)]
    exact_mod_cast Iff.rfl
  have htwo : (2 : ℚ) ≠ 0 := by norm_num
  have habove : (num / den : ℚ) < 2 ^ (k + 1) := by
    rw [div_lt_iff₀ hd]
    calc (num : ℚ) < 2 ^ ((num.log2 : Int) + 1) := hnumHigh
      _ = 2 ^ (k + 1) * 2 ^ (den.log2 : Int) := by rw [← zpow_add₀ htwo]; congr 1; omega
      _ ≤ 2 ^ (k + 1) * den := by gcongr
  have hbelow : (2 : ℚ) ^ (k - 1) ≤ num / den := by
    rw [le_div_iff₀ hd]
    calc (2 : ℚ) ^ (k - 1) * den ≤ 2 ^ (k - 1) * 2 ^ ((den.log2 : Int) + 1) := by gcongr
      _ = 2 ^ (num.log2 : Int) := by rw [← zpow_add₀ htwo]; congr 1; omega
      _ ≤ num := hnumLow
  dsimp only
  split
  · rename_i h
    exact ⟨k, rfl, hreach.1 h, habove⟩
  · rename_i h
    rw [hreach, not_le] at h
    refine ⟨k - 1, by congr 1; omega, hbelow, ?_⟩
    rwa [sub_add_cancel]

theorem roundingUnit_eq (x : Binary64) (num den : Nat) (hnum : 0 < num) (hden : 0 < den)
    (h : (num / den : ℚ) = x.value) : roundingUnit num den = x.unit := by
  obtain ⟨l, hl, hlow, hhigh⟩ := exists_roundingUnit num den hnum hden
  obtain ⟨hsig, hgrid, -⟩ := x.significand_unit
  have htwo : (1 : ℚ) < 2 := by norm_num
  have hpos : (0 : ℚ) < 2 ^ x.unit := by positivity
  have hbelow : ∀ n : Nat, x.significand < 2 ^ n → l < x.unit + n := by
    intro n hn
    refine (zpow_lt_zpow_iff_right₀ htwo).1 (lt_of_le_of_lt hlow ?_)
    have hcast : (x.significand : ℚ) < 2 ^ (n : Int) := by exact_mod_cast hn
    rw [h, value, zpow_add₀ (by norm_num), mul_comm]
    gcongr
  have hleast : 2 ^ 52 ≤ x.significand → x.unit + 52 < l + 1 := by
    intro hn
    refine (zpow_lt_zpow_iff_right₀ htwo).1 (lt_of_le_of_lt ?_ hhigh)
    have hcast : (2 : ℚ) ^ (52 : Int) ≤ x.significand := by exact_mod_cast hn
    rw [h, value, zpow_add₀ (by norm_num), mul_comm]
    gcongr
  rw [hl]
  rcases hgrid with ⟨hnormal, hunit⟩ | ⟨hsmall, hunit⟩
  · have h53 := hbelow 53 hsig
    have h52 := hleast hnormal
    omega
  · have h52 := hbelow 52 hsmall
    omega

/-- A ratio that is the value of a number is rounded to that number. -/
theorem roundRatio_eq (x : Binary64) (num den : Nat) (hnum : 0 < num) (hden : 0 < den)
    (h : (num / den : ℚ) = x.value) : roundRatio num den = x.magnitude := by
  have hd : (den : ℚ) ≠ 0 := by exact_mod_cast hden.ne'
  have hscaled : num * Nat.pow 2 (-x.unit).toNat = x.significand * (den * Nat.pow 2 x.unit.toNat) := by
    have hz := zpow_eq_div 2 (by decide) x.unit
    have hpow : ((Nat.pow 2 (-x.unit).toNat : Nat) : ℚ) ≠ 0 := by
      exact_mod_cast (Nat.pow_pos (by decide)).ne'
    rw [value, ← Nat.cast_ofNat (n := 2), hz] at h
    have hcast : (num : ℚ) * (Nat.pow 2 (-x.unit).toNat : Nat) =
        x.significand * (den * (Nat.pow 2 x.unit.toNat : Nat)) := by
      field_simp at h
      linarith
    exact_mod_cast hcast
  have hpos : 0 < den * Nat.pow 2 x.unit.toNat := Nat.mul_pos hden (Nat.pow_pos (by decide))
  unfold roundRatio
  rw [roundingUnit_eq x num den hnum hden h]
  dsimp only
  rw [hscaled, nearest_mul _ _ hpos, ← magnitude_eq]

/-- Three bits are less than a digit. -/
theorem two_zpow_le : (2 : ℚ) ^ (1200 : Int) ≤ 10 ^ (400 : Int) := by
  rw [show (1200 : Int) = 3 * 400 from rfl, zpow_mul]
  exact zpow_le_zpow_left₀ (by decide) (by norm_num) (by norm_num)

theorem value_lt (x : Binary64) : x.value < 10 ^ (400 : Int) := by
  obtain ⟨hsig, -, hunit⟩ := x.significand_unit
  have hcast : (x.significand : ℚ) < 2 ^ (53 : Int) := by exact_mod_cast hsig
  calc x.value < 2 ^ (53 : Int) * 2 ^ x.unit := by
        rw [value]
        gcongr
    _ = 2 ^ (53 + x.unit) := (zpow_add₀ (by norm_num) _ _).symm
    _ ≤ 2 ^ (1200 : Int) := zpow_le_zpow_right₀ (by norm_num) (by omega)
    _ ≤ 10 ^ (400 : Int) := two_zpow_le

theorem le_value (x : Binary64) (h : x.magnitude ≠ 0) : (10 : ℚ) ^ (-400 : Int) ≤ x.value := by
  obtain ⟨-, hgrid, -⟩ := x.significand_unit
  have hone : (1 : ℚ) ≤ x.significand := by exact_mod_cast x.significand_pos h
  calc (10 : ℚ) ^ (-400 : Int) ≤ 2 ^ (-1200 : Int) := by
        rw [zpow_neg, zpow_neg]
        exact inv_anti₀ (by positivity) two_zpow_le
    _ ≤ 2 ^ x.unit := zpow_le_zpow_right₀ (by norm_num) (by omega)
    _ ≤ x.value := le_mul_of_one_le_left (by positivity) hone

/-- A decimal that is the value of a number is read as that number. -/
theorem ofDecimal?_eq (x : Binary64) (d : Decimal) (hx : x.magnitude ≠ 0) (hsign : d.negative = x.negative)
    (h : d.value = x.value) : ofDecimal? d = some x := by
  have hlow := x.le_value hx
  have hhigh := x.value_lt
  rw [← h, Decimal.value] at hlow hhigh
  have hten : (1 : ℚ) < 10 := by norm_num
  have hmantissa : d.mantissa ≠ 0 := by
    intro hzero
    rw [hzero, Nat.cast_zero, zero_mul] at hlow
    exact absurd hlow (not_le.2 (by positivity))
  have hone : (1 : ℚ) ≤ d.mantissa := by exact_mod_cast Nat.one_le_iff_ne_zero.2 hmantissa
  have hexponent : ¬ 400 < d.exponent := by
    intro hlarge
    have hpow : (10 : ℚ) ^ (400 : Int) ≤ 10 ^ d.exponent := zpow_le_zpow_right₀ hten.le (by omega)
    have hle : (10 : ℚ) ^ d.exponent ≤ d.mantissa * 10 ^ d.exponent :=
      le_mul_of_one_le_left (by positivity) hone
    linarith
  have hlog : ¬ d.exponent + d.mantissa.log2 < -400 := by
    intro hsmall
    have hmant : (d.mantissa : ℚ) < 10 ^ ((d.mantissa.log2 : Int) + 1) := by
      calc (d.mantissa : ℚ) < 2 ^ ((d.mantissa.log2 : Int) + 1) := by exact_mod_cast Nat.lt_log2_self
        _ ≤ 10 ^ ((d.mantissa.log2 : Int) + 1) := zpow_le_zpow_left₀ (by omega) (by norm_num) (by norm_num)
    have hlt : (d.mantissa : ℚ) * 10 ^ d.exponent < 10 ^ (-400 : Int) := by
      calc (d.mantissa : ℚ) * 10 ^ d.exponent < 10 ^ ((d.mantissa.log2 : Int) + 1) * 10 ^ d.exponent := by gcongr
        _ = 10 ^ ((d.mantissa.log2 : Int) + 1 + d.exponent) := (zpow_add₀ (by norm_num) _ _).symm
        _ ≤ 10 ^ (-400 : Int) := zpow_le_zpow_right₀ hten.le (by omega)
    linarith
  have hnum : 0 < d.mantissa * Nat.pow 10 d.exponent.toNat :=
    Nat.mul_pos (Nat.pos_of_ne_zero hmantissa) (Nat.pow_pos (by decide))
  have hden : 0 < Nat.pow 10 (-d.exponent).toNat := Nat.pow_pos (by decide)
  have hratio : ((d.mantissa * Nat.pow 10 d.exponent.toNat : Nat) / (Nat.pow 10 (-d.exponent).toNat : Nat) : ℚ) =
      x.value := by
    have hz := zpow_eq_div 10 (by decide) d.exponent
    rw [Nat.cast_ofNat] at hz
    rw [← h, Decimal.value, hz, Nat.cast_mul, mul_div_assoc]
  have hround := roundRatio_eq x _ _ hnum hden hratio
  unfold ofDecimal? ofRatio?
  rw [if_neg (by simp [hmantissa, hlog]), if_neg hexponent, if_neg hnum.ne']
  simp only [hround, x.finite, dite_true, hsign]

theorem value_exactDecimal (x : Binary64) : x.exactDecimal.value = x.value := by
  rw [exactDecimal, Decimal.value_ofScaled, value, Nat.cast_mul, Nat.cast_mul, mul_assoc, mul_assoc]
  congr 1
  rcases Int.le_total 0 x.unit with h | h
  · obtain ⟨n, hn⟩ := Int.eq_ofNat_of_zero_le h
    rw [hn]
    simp
  · obtain ⟨n, hn⟩ := Int.eq_ofNat_of_zero_le (Int.neg_nonneg_of_nonpos h)
    obtain hn' : x.unit = -(n : Int) := by omega
    rw [hn', min_eq_left (by omega)]
    simp only [Int.toNat_neg_natCast, neg_neg, Int.toNat_natCast, Nat.pow_eq, zpow_neg, zpow_natCast]
    push_cast
    rw [one_mul, ← div_eq_mul_inv, div_eq_iff (by positivity), ← div_eq_inv_mul, eq_div_iff (by positivity),
      ← mul_pow]
    norm_num

theorem reduced_neighbours (x : Binary64) (exponent : Int) : ∀ d ∈ x.neighbours exponent, d.Reduced := by
  intro d hd
  simp only [neighbours, List.mem_cons, List.not_mem_nil, or_false] at hd
  rcases hd with rfl | rfl <;> exact Decimal.reduced_ofScaled _ _ _

/-- The digits that a number is written with read back as the number, and end with none that could be left out. -/
theorem shortest_spec (x : Binary64) : ofDecimal? x.shortest = some x ∧ x.shortest.Reduced := by
  unfold shortest
  split
  · rename_i hzero
    obtain ⟨negative, magnitude, finite⟩ := x
    subst hzero
    exact ⟨rfl, by simp [Decimal.Reduced, Decimal.ofScaled, Decimal.reduce]⟩
  · rename_i hx
    dsimp only
    generalize hgrids : (List.range 17).map _ = grids
    cases hfind : grids.flatten.find? fun d => ofDecimal? d = some x with
    | some d =>
      obtain ⟨grid, hgrid, hd⟩ := List.mem_flatten.1 (List.mem_of_find?_eq_some hfind)
      rw [← hgrids] at hgrid
      obtain ⟨n, -, rfl⟩ := List.mem_map.1 hgrid
      exact ⟨by simpa using List.find?_some hfind, reduced_neighbours x _ d hd⟩
    | none => exact ⟨ofDecimal?_eq x _ hx rfl x.value_exactDecimal, Decimal.reduced_ofScaled _ _ _⟩

end Binary64

namespace Json.Numeral

/-- The numeral of a float has the value of its shortest digits, whichever way it is written. -/
theorem exists_ofBinary64 (x : Binary64) : ∃ negative significand exponent,
    ofBinary64 x = decimal negative significand exponent ∧
      Decimal.ofScaled negative significand exponent = x.shortest := by
  have hreduced := x.shortest_spec.2
  unfold ofBinary64
  dsimp only
  split
  · rename_i h
    refine ⟨_, _, _, rfl, ?_⟩
    have hexponent : (-1 : Int) + (x.shortest.exponent + 1).toNat = x.shortest.exponent := by omega
    conv_rhs => rw [← hreduced]
    simp only [Decimal.ofScaled, Nat.pow_eq, Decimal.reduce_mul_pow, hexponent]
  · exact ⟨_, _, _, rfl, hreduced⟩

theorem ofBinary64_injective : Function.Injective ofBinary64 := by
  intro x y h
  obtain ⟨negative, significand, exponent, hx, hshortest⟩ := exists_ofBinary64 x
  obtain ⟨negative', significand', exponent', hy, hshortest'⟩ := exists_ofBinary64 y
  rw [hx, hy] at h
  obtain ⟨rfl, rfl, rfl⟩ := decimal.inj h
  have hsame : x.shortest = y.shortest := hshortest.symm.trans hshortest'
  exact Option.some.inj (x.shortest_spec.1.symm.trans (hsame ▸ y.shortest_spec.1))

end Json.Numeral

end CardIndex
