import OpcodeLens.Number.Numeral
import OpcodeLens.Proofs.Number.Whole
import Mathlib.Algebra.Order.Field.Power
import Mathlib.Algebra.Order.Field.Rat
import Mathlib.Tactic.GCongr
import Mathlib.Tactic.NormNum
import Mathlib.Tactic.Positivity

/-!
# The ends of the format

Rounding gives nothing for what is too large and zero for what is too small.  So the reader of
decimal numbers does not have to write out a power of ten that is far outside the format, and what
it reads is what is written, rounded once.

* `Number.round?_neg` : rounding does not mind the sign.
* `Number.binaryExponent_spec` : the power of two below a quotient.
* `Number.round?_eq_none`, `Number.round?_eq_zero` : **what is too large and too small.**
* `Numeral.scaled?_eq_round?` : **a decimal number is rounded once.**
-/

namespace OpcodeLens

namespace Number

variable {num den : Nat} {r : Rat}

/-- Rounding does not mind the sign. -/
theorem round?_neg (r : Rat) : round? (-r) = (round? r).map (- ·) := by
  by_cases hzero : r.num = 0
  · rw [Rat.num_eq_zero.1 hzero, neg_zero]
    rfl
  · simp only [round?, Rat.num_neg_eq_neg_num, Rat.den_neg_eq_den, Int.natAbs_neg,
      Int.neg_eq_zero, if_neg hzero]
    split_ifs with hlarge hneg hpos hpos
    · rfl
    · omega
    · rfl
    · rw [Option.map_some, neg_neg]
    · omega

/-! ### Powers -/

/-- A power with an integer exponent is a quotient of natural powers. -/
theorem zpow_eq_div (b : Rat) (e : Int) : b ^ e = b ^ e.toNat / b ^ (-e).toNat := by
  rcases Int.le_total 0 e with he | he
  · obtain ⟨n, rfl⟩ := Int.eq_ofNat_of_zero_le he
    simp
  · obtain ⟨n, hn⟩ := Int.eq_ofNat_of_zero_le (Int.neg_nonneg_of_nonpos he)
    obtain rfl : e = -n := by omega
    simp

theorem div_lt_two_zpow_iff (hden : den ≠ 0) (e : Int) :
    (num / den : Rat) < 2 ^ e ↔ num * 2 ^ (-e).toNat < den * 2 ^ e.toNat := by
  have hpos : (0 : Rat) < den := by exact_mod_cast Nat.pos_of_ne_zero hden
  rw [zpow_eq_div, div_lt_div_iff₀ hpos (by positivity), mul_comm _ (den : Rat)]
  exact_mod_cast Iff.rfl

/-- **The power of two below a quotient.** -/
theorem binaryExponent_spec (hnum : num ≠ 0) (hden : den ≠ 0) :
    (2 : Rat) ^ binaryExponent num den ≤ num / den ∧
      (num / den : Rat) < 2 ^ (binaryExponent num den + 1) := by
  have hpos : (0 : Rat) < den := by exact_mod_cast Nat.pos_of_ne_zero hden
  have hnumLow : (2 : Rat) ^ Nat.log2 num ≤ num := by exact_mod_cast Nat.log2_self_le hnum
  have hnumHigh : (num : Rat) < 2 ^ (Nat.log2 num + 1) := by exact_mod_cast Nat.lt_log2_self
  have hdenLow : (2 : Rat) ^ Nat.log2 den ≤ den := by exact_mod_cast Nat.log2_self_le hden
  have hdenHigh : (den : Rat) < 2 ^ (Nat.log2 den + 1) := by exact_mod_cast Nat.lt_log2_self
  -- the logarithms of both parts leave two candidates
  have hlow : (2 : Rat) ^ ((Nat.log2 num : Int) - Nat.log2 den - 1) < num / den := by
    have heq : (2 : Rat) ^ ((Nat.log2 num : Int) - Nat.log2 den - 1) =
        2 ^ Nat.log2 num / 2 ^ (Nat.log2 den + 1) := by
      rw [sub_sub, zpow_sub₀ two_ne_zero, zpow_natCast]
      exact_mod_cast rfl
    rw [heq, div_lt_div_iff₀ (by positivity) hpos]
    calc (2 : Rat) ^ Nat.log2 num * den ≤ num * den := by gcongr
      _ < num * 2 ^ (Nat.log2 den + 1) := by gcongr
  have hhigh : (num / den : Rat) < 2 ^ ((Nat.log2 num : Int) - Nat.log2 den + 1) := by
    have heq : (2 : Rat) ^ ((Nat.log2 num : Int) - Nat.log2 den + 1) =
        2 ^ (Nat.log2 num + 1) / 2 ^ Nat.log2 den := by
      rw [sub_add_eq_add_sub, zpow_sub₀ two_ne_zero, zpow_natCast]
      exact_mod_cast rfl
    rw [heq, div_lt_div_iff₀ hpos (by positivity)]
    calc (num : Rat) * 2 ^ Nat.log2 den ≤ num * den := by gcongr
      _ < 2 ^ (Nat.log2 num + 1) * den := by gcongr
  unfold binaryExponent
  dsimp only
  split_ifs with htest
  · rw [Nat.pow_eq, Nat.pow_eq, ← div_lt_two_zpow_iff hden] at htest
    exact ⟨hlow.le, by rwa [sub_add_cancel]⟩
  · rw [Nat.pow_eq, Nat.pow_eq, ← div_lt_two_zpow_iff hden] at htest
    exact ⟨not_lt.1 htest, hhigh⟩

/-! ### What is too large and too small -/

theorem div_le_divideNearest (a b : Nat) : a / b ≤ divideNearest a b := by
  unfold divideNearest
  dsimp only
  split_ifs <;> omega

theorem divideNearest_eq_zero {a b : Nat} (h : 2 * a < b) : divideNearest a b = 0 := by
  have hdiv : a / b = 0 := Nat.div_eq_of_lt (by omega)
  have hmod : a % b = a := Nat.mod_eq_of_lt (by omega)
  rw [divideNearest, hdiv, hmod, if_pos h]

/-- Nothing from a power of two on is rounded to less than it. -/
theorem two_pow_le_nearest {k : Nat} (hnum : num ≠ 0) (hden : den ≠ 0) (hk : 52 ≤ k)
    (h : (2 : Rat) ^ k ≤ num / den) :
    2 ^ k ≤ (nearest num den).1 * 2 ^ (nearest num den).2.toNat := by
  obtain ⟨hlow, hhigh⟩ := binaryExponent_spec hnum hden
  generalize hexp : binaryExponent num den = e at hlow hhigh
  have he : (k : Int) ≤ e := by
    have hlt : (2 : Rat) ^ (k : Int) < 2 ^ (e + 1) := by
      rw [zpow_natCast]
      exact h.trans_lt hhigh
    have := (zpow_lt_zpow_iff_right₀ (one_lt_two : (1 : Rat) < 2)).1 hlt
    omega
  obtain ⟨j, rfl⟩ : ∃ j : Nat, e = (52 + j : Nat) := ⟨(e - 52).toNat, by omega⟩
  have hunit : unitExponent num den = j := by
    rw [unitExponent, hexp]
    omega
  have hle : 2 ^ 52 * (den * 2 ^ j) ≤ num := by
    rw [← not_lt, div_lt_two_zpow_iff hden, not_lt, Int.toNat_natCast] at hlow
    have hneg : (-((52 + j : Nat) : Int)).toNat = 0 := by omega
    rw [hneg, pow_zero, Nat.mul_one] at hlow
    calc 2 ^ 52 * (den * 2 ^ j) = den * 2 ^ (52 + j) := by rw [pow_add]; ring
      _ ≤ num := hlow
  have hsignificand : 2 ^ 52 ≤ (nearest num den).1 := by
    have hneg : (-(j : Int)).toNat = 0 := by omega
    rw [nearest, hunit]
    dsimp only
    rw [hneg, Int.toNat_natCast, Nat.pow_eq, Nat.pow_eq, pow_zero, Nat.mul_one]
    refine le_trans ?_ (div_le_divideNearest _ _)
    exact (Nat.le_div_iff_mul_le (by positivity)).2 hle
  have hq : (nearest num den).2.toNat = j := by
    rw [nearest, hunit]
    exact Int.toNat_natCast j
  rw [hq]
  calc 2 ^ k ≤ 2 ^ (52 + j) := Nat.pow_le_pow_right (by decide) (by omega)
    _ = 2 ^ 52 * 2 ^ j := pow_add 2 52 j
    _ ≤ (nearest num den).1 * 2 ^ j := Nat.mul_le_mul_right _ hsignificand

theorem eq_natAbs_div_den (h : 0 < r) : r = (r.num.natAbs : Rat) / r.den := by
  have hnum : (r.num.natAbs : Int) = r.num := Int.natAbs_of_nonneg (Rat.num_nonneg.2 h.le)
  have hcast : ((r.num.natAbs : Nat) : Rat) = r.num := by rw [← Int.cast_natCast, hnum]
  rw [hcast, Rat.num_div_den]

/-- **What is too large** is not rounded. -/
theorem round?_eq_none (h : 2 ^ 1024 ≤ r) : round? r = none := by
  have hpos : 0 < r := lt_of_lt_of_le (by positivity) h
  have hnum : r.num ≠ 0 := Rat.num_ne_zero.2 hpos.ne'
  rw [eq_natAbs_div_den hpos] at h
  unfold round?
  rw [if_neg hnum]
  -- the bound stays a variable, so that nothing writes out its power of two
  generalize hk : 1024 = k at h
  have hle := two_pow_le_nearest (Int.natAbs_ne_zero.2 hnum) r.den_nz (by omega) h
  rcases hnearest : nearest r.num.natAbs r.den with ⟨m, q⟩
  rw [hnearest] at hle
  exact if_pos hle

/-- The values around zero are multiples of the least one. -/
theorem nearest_of_lt (hnum : num ≠ 0) (hden : den ≠ 0)
    (h : (num / den : Rat) < 2 ^ (-1075 : Int)) : nearest num den = (0, -1074) := by
  have hexp : binaryExponent num den < -1075 := by
    have hlow := (binaryExponent_spec hnum hden).1
    exact (zpow_lt_zpow_iff_right₀ (one_lt_two : (1 : Rat) < 2)).1 (hlow.trans_lt h)
  have hunit : unitExponent num den = -1074 := by
    rw [unitExponent]
    omega
  rw [div_lt_two_zpow_iff hden] at h
  -- the exponent stays a variable, so that nothing writes out its power of two
  obtain ⟨k, hk⟩ : ∃ k : Nat, k = 1074 := ⟨_, rfl⟩
  have hle : (-1075 : Int).toNat = 0 := rfl
  have hle' : (-(-1075 : Int)).toNat = k + 1 := by omega
  have hunit' : (-1074 : Int).toNat = 0 := rfl
  have hunit'' : (-(-1074 : Int)).toNat = k := by omega
  rw [hle, hle', pow_zero, Nat.mul_one, pow_succ, ← Nat.mul_assoc] at h
  rw [nearest, hunit, hunit', hunit'', Nat.pow_eq, Nat.pow_eq, pow_zero, Nat.mul_one,
    divideNearest_eq_zero (by omega)]

/-- **What is too small** is rounded to zero. -/
theorem round?_eq_zero (hpos : 0 < r) (h : r < 2 ^ (-1075 : Int)) : round? r = some 0 := by
  have hnum : r.num ≠ 0 := Rat.num_ne_zero.2 hpos.ne'
  have hneg : ¬ r.num < 0 := not_lt.2 (Rat.num_nonneg.2 hpos.le)
  rw [eq_natAbs_div_den hpos] at h
  unfold round?
  rw [if_neg hnum, nearest_of_lt (Int.natAbs_ne_zero.2 hnum) r.den_nz h]
  generalize hk : 1024 = k
  have hlarge : ¬ Nat.pow 2 k ≤ 0 * Nat.pow 2 (-1074 : Int).toNat := by
    rw [Nat.zero_mul, Nat.pow_eq]
    exact Nat.not_le.2 (Nat.two_pow_pos k)
  have hscale : scale 0 (-1074) = 0 := by
    rw [scale, Nat.zero_mul]
    exact Rat.zero_mkRat _
  dsimp only
  rw [if_neg hlarge, if_neg hneg, hscale]

end Number

namespace Numeral

/-- The number of digits of a number. -/
theorem length_toDigits_bounds {m : Nat} (hm : m ≠ 0) :
    10 ^ ((Nat.toDigits 10 m).length - 1) ≤ m ∧ m < 10 ^ (Nat.toDigits 10 m).length := by
  have hpos : 0 < (Nat.toDigits 10 m).length := Nat.length_toDigits_pos
  constructor
  · by_contra hlt
    have hone : 0 < (Nat.toDigits 10 m).length - 1 := by
      refine Nat.pos_of_ne_zero fun hzero => ?_
      rw [hzero, pow_zero] at hlt
      omega
    have := (Nat.length_toDigits_le_iff (by decide) hone).2 (not_le.1 hlt)
    omega
  · exact (Nat.length_toDigits_le_iff (by decide) hpos).1 le_rfl

theorem two_pow_le_ten_pow {j k : Nat} (h : j ≤ 3 * k) : (2 : Rat) ^ j ≤ 10 ^ k :=
  calc (2 : Rat) ^ j ≤ 2 ^ (3 * k) := pow_le_pow_right₀ one_le_two h
    _ = (2 ^ 3) ^ k := pow_mul 2 3 k
    _ ≤ 10 ^ k := pow_le_pow_left₀ (by norm_num) (by norm_num) k

/-- **A decimal number is rounded once**: what is far outside the format is left out, since rounding
would give nothing for it, or zero. -/
theorem scaled?_eq_round? (m : Nat) (e : Int) : scaled? m e = Number.round? (m * 10 ^ e) := by
  by_cases hm : m = 0
  · rw [scaled?, if_pos hm, hm, Nat.cast_zero, zero_mul]
    rfl
  · obtain ⟨hlow, hhigh⟩ := length_toDigits_bounds hm
    have hpos : 0 < (Nat.toDigits 10 m).length := Nat.length_toDigits_pos
    rw [scaled?, if_neg hm]
    dsimp only
    generalize (Nat.toDigits 10 m).length = d at hlow hhigh hpos
    have hten : (0 : Rat) < 10 ^ e := by positivity
    split_ifs with hlarge hsmall
    · refine (Number.round?_eq_none ?_).symm
      have hm' : (10 : Rat) ^ (d - 1) ≤ m := by exact_mod_cast hlow
      calc (2 : Rat) ^ 1024 ≤ 10 ^ 400 := two_pow_le_ten_pow (by decide)
        _ = 10 ^ (400 : Int) := (zpow_natCast 10 400).symm
        _ ≤ 10 ^ (((d - 1 : Nat) : Int) + e) := zpow_le_zpow_right₀ (by norm_num) (by omega)
        _ = 10 ^ (d - 1) * 10 ^ e := by rw [zpow_add₀ (by norm_num), zpow_natCast]
        _ ≤ m * 10 ^ e := by gcongr
    · have hm' : (m : Rat) < 10 ^ d := by exact_mod_cast hhigh
      refine (Number.round?_eq_zero (mul_pos ?_ hten) ?_).symm
      · exact_mod_cast Nat.pos_of_ne_zero hm
      · calc (m : Rat) * 10 ^ e < 10 ^ d * 10 ^ e := by gcongr
          _ = 10 ^ ((d : Int) + e) := by rw [zpow_add₀ (by norm_num), zpow_natCast]
          _ ≤ 10 ^ (-401 : Int) := zpow_le_zpow_right₀ (by norm_num) (by omega)
          _ = (10 ^ 401)⁻¹ := by rw [zpow_neg, zpow_ofNat]
          _ ≤ (2 ^ 1075)⁻¹ := inv_anti₀ (by positivity) (two_pow_le_ten_pow (by decide))
          _ = 2 ^ (-1075 : Int) := by rw [zpow_neg, zpow_ofNat]
    · rw [Rat.mkRat_eq_div, Number.zpow_eq_div, Nat.pow_eq, Nat.pow_eq]
      push_cast
      rw [mul_div_assoc]

end Numeral

end OpcodeLens
