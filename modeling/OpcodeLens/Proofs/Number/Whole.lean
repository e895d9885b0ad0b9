import OpcodeLens.Number.Basic
import Mathlib.Algebra.Order.Ring.Rat
import Mathlib.Tactic.Ring

/-!
# Whole numbers are exact

A whole number below 2 ^ 53 in magnitude has a place of its own among the values, so that it is
rounded to itself and counted on by exactly one.

* `Number.round?_intCast` : **rounding changes no such number.**
* `Number.succ_intCast` : counting on is exact.
-/

namespace OpcodeLens

namespace Number

variable {a : Nat}

theorem divideNearest_one (a : Nat) : divideNearest a 1 = a := by
  simp [divideNearest, Nat.mod_one]

theorem binaryExponent_one (h : a ≠ 0) : binaryExponent a 1 = Nat.log2 a := by
  have hle : 2 ^ Nat.log2 a ≤ a := Nat.log2_self_le h
  have hlog : Nat.log2 1 = 0 := by decide
  have hneg : (-(Nat.log2 a : Int)).toNat = 0 := by omega
  unfold binaryExponent
  simp only [hlog, Nat.cast_zero, sub_zero, hneg, Int.toNat_natCast, Nat.pow_eq, pow_zero,
    Nat.mul_one, Nat.one_mul]
  exact if_neg (Nat.not_lt.2 hle)

/-- The significand of a whole number has the bits of the number in front. -/
theorem nearest_one (h : a ≠ 0) (hlt : a < 2 ^ 53) :
    nearest a 1 = (a * 2 ^ (52 - Nat.log2 a), (Nat.log2 a : Int) - 52) := by
  have hlog : Nat.log2 a < 53 := (Nat.log2_lt h).2 hlt
  have hunit : unitExponent a 1 = (Nat.log2 a : Int) - 52 := by
    rw [unitExponent, binaryExponent_one h]
    omega
  have hneg : (-((Nat.log2 a : Int) - 52)).toNat = 52 - Nat.log2 a := by omega
  have hpos : ((Nat.log2 a : Int) - 52).toNat = 0 := by omega
  unfold nearest
  simp only [hunit, hneg, hpos, Nat.pow_eq, pow_zero, Nat.mul_one, divideNearest_one]

theorem scale_mul_pow (a s : Nat) : scale (a * 2 ^ s) (-(s : Int)) = a := by
  have hpos : (-(s : Int)).toNat = 0 := by omega
  have hne : 2 ^ s ≠ 0 := Nat.pos_iff_ne_zero.1 (Nat.two_pow_pos s)
  unfold scale
  rw [hpos, neg_neg, Int.toNat_natCast]
  calc mkRat ((a * 2 ^ s * Nat.pow 2 0 : Nat) : Int) (Nat.pow 2 s)
      = mkRat ((a : Int) * (2 ^ s : Nat)) (1 * 2 ^ s) := by
        rw [Nat.one_mul, Nat.pow_eq, Nat.pow_eq, pow_zero, Nat.mul_one, Nat.cast_mul]
    _ = mkRat a 1 := Rat.mkRat_mul_right hne
    _ = a := Rat.mkRat_one (a : Int)

/-- The bits of a whole number are far from too many. -/
theorem significand_fits {k : Nat} (hlt : a < 2 ^ 53) (hk : 105 ≤ k) :
    ¬ Nat.pow 2 k ≤ a * 2 ^ (52 - Nat.log2 a) * Nat.pow 2 0 := by
  rw [Nat.not_le, Nat.pow_eq, Nat.pow_eq, pow_zero, Nat.mul_one]
  calc a * 2 ^ (52 - Nat.log2 a)
      < 2 ^ 53 * 2 ^ (52 - Nat.log2 a) := Nat.mul_lt_mul_of_pos_right hlt (Nat.two_pow_pos _)
    _ = 2 ^ (53 + (52 - Nat.log2 a)) := (Nat.pow_add ..).symm
    _ ≤ 2 ^ k := Nat.pow_le_pow_right (by decide) (by omega)

/-- **Rounding changes no whole number** below 2 ^ 53 in magnitude. -/
theorem round?_intCast {n : Int} (h : n.natAbs < 2 ^ 53) : round? (n : Rat) = some (n : Rat) := by
  by_cases hn : n = 0
  · subst hn
    rfl
  · have ha : n.natAbs ≠ 0 := Int.natAbs_ne_zero.2 hn
    have hlog : Nat.log2 n.natAbs < 53 := (Nat.log2_lt ha).2 h
    have hexp : -((52 - Nat.log2 n.natAbs : Nat) : Int) = (Nat.log2 n.natAbs : Int) - 52 := by
      omega
    have hscale := scale_mul_pow n.natAbs (52 - Nat.log2 n.natAbs)
    rw [hexp] at hscale
    have hpos : ((Nat.log2 n.natAbs : Int) - 52).toNat = 0 := by omega
    unfold round?
    rw [Rat.num_intCast, Rat.den_intCast, if_neg hn, nearest_one ha h]
    dsimp only
    -- the bound stays a variable, so that nothing writes out its power of two
    generalize hk : 1024 = k
    rw [hpos, hscale, if_neg (significand_fits h (by omega))]
    split_ifs with hneg
    · have hmag : (n.natAbs : Int) = -n := Int.ofNat_natAbs_of_nonpos hneg.le
      rw [← Int.cast_natCast, hmag, Int.cast_neg, neg_neg]
    · have hmag : (n.natAbs : Int) = n := Int.natAbs_of_nonneg (not_lt.1 hneg)
      rw [← Int.cast_natCast, hmag]

/-- Counting on is exact. -/
theorem succ_intCast {n : Int} (h : (n + 1).natAbs < 2 ^ 53) : succ (n : Rat) = n + 1 := by
  have hsum : (n : Rat) + 1 = ((n + 1 : Int) : Rat) := by push_cast; rfl
  rw [succ, hsum, round?_intCast h, Option.getD_some]

end Number

end OpcodeLens
