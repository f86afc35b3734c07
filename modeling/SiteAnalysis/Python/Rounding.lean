import Mathlib.Algebra.Order.Field.Rat
import Mathlib.Data.Rat.Cast.Order
import Mathlib.Tactic.Positivity
import Mathlib.Tactic.Linarith
import Mathlib.Tactic.FieldSimp
import Mathlib.Tactic.NormNum
import SiteAnalysis.Python.Number

/-
  This file proves bounds on the rounding of numbers: what
  lies between zero and an integer that a `float` represents
  stays there when it is rounded.

  Key theorems include:
    * `roundHalfEven_le`
    * `roundHalfEven_mono`
    * `floorLog2_lt`
    * `toDouble_bounds`
    * `Json.roundTo_bounds`
-/

------------------------------------------------------------
-- The Nearest Integer
------------------------------------------------------------

namespace Python

theorem roundHalfEven_le
    {q : Rat}
    {n : Int}
    (hLe : q ≤ n) : roundHalfEven q ≤ n := by
  have hFloor : q.floor ≤ n := by
    have hMono := Rat.floor_monotone hLe
    rwa [Rat.floor_intCast] at hMono
  have hAbove :
      1 / 2 ≤ q - q.floor → q.floor + 1 ≤ n := by
    intro hRest
    have hLess : (q.floor : Rat) < n := by linarith
    have hCast : q.floor < n := by exact_mod_cast hLess
    omega
  unfold roundHalfEven
  dsimp only
  split
  · exact hFloor
  · rename_i hNotBelow
    have hUp := hAbove (not_lt.mp hNotBelow)
    split
    · exact hUp
    · split
      · exact hFloor
      · exact hUp

theorem le_roundHalfEven
    {q : Rat}
    {n : Int}
    (hLe : (n : Rat) ≤ q) : n ≤ roundHalfEven q := by
  have hFloor : n ≤ q.floor := Rat.le_floor_iff.mpr hLe
  unfold roundHalfEven
  dsimp only
  split
  · exact hFloor
  · split
    · omega
    · split
      · exact hFloor
      · omega

theorem roundHalfEven_le_succ
    (q : Rat) : roundHalfEven q ≤ q.floor + 1 := by
  unfold roundHalfEven
  dsimp only
  split
  · omega
  · split
    · omega
    · split <;> omega

/- Rounding keeps the order. -/
theorem roundHalfEven_mono
    {q r : Rat}
    (hLe : q ≤ r) :
    roundHalfEven q ≤ roundHalfEven r := by
  by_cases hSame : q.floor = r.floor
  · unfold roundHalfEven
    dsimp only
    rw [hSame]
    have hRest : q - r.floor ≤ r - r.floor := by linarith
    split
    · split
      · exact le_refl _
      · split
        · omega
        · split <;> omega
    · rename_i hq
      have hNot : ¬ r - (r.floor : Rat) < 1 / 2 := by linarith
      rw [if_neg hNot]
      split
      · rename_i hAbove
        have hUp : 1 / 2 < r - (r.floor : Rat) := by linarith
        rw [if_pos hUp]
      · split
        · split
          · omega
          · exact le_refl _
        · split
          · omega
          · exact le_refl _
  · have hFloor := Rat.floor_monotone hLe
    have hNext : q.floor + 1 ≤ r.floor := by omega
    have hBelow : r.floor ≤ roundHalfEven r :=
      le_roundHalfEven (Rat.floor_le r)
    have hAbove := roundHalfEven_le_succ q
    omega

------------------------------------------------------------
-- The Nearest Float
------------------------------------------------------------

/- The leading digit of a small number. -/
theorem floorLog2_lt
    {q : Rat}
    {n : Nat}
    (hPos : 0 < q)
    (hLess : q < 2 ^ n) : floorLog2 q < n := by
  unfold floorLog2
  dsimp only
  split
  · rename_i hBelow
    by_contra hLarge
    obtain ⟨m, hm⟩ :
        ∃ m : Nat,
          (q.num.natAbs.log2 : Int) - q.den.log2 = m :=
      ⟨_, (Int.toNat_of_nonneg (by omega)).symm⟩
    rw [hm] at hBelow hLarge
    have hPower : (2 : Rat) ^ n ≤ 2 ^ m :=
      pow_le_pow_right₀ (by norm_num) (by omega)
    have hValue : power 2 (m : Int) = (2 : Rat) ^ m := by
      simp [power]
    rw [hValue] at hBelow
    linarith
  · by_contra hLarge
    have hNum : q.num.natAbs ≠ 0 := by
      have hNonzero : q.num ≠ 0 :=
        Rat.num_ne_zero.mpr (ne_of_gt hPos)
      omega
    have hNumPow := Nat.log2_self_le hNum
    have hDenPow : q.den < 2 ^ (q.den.log2 + 1) :=
      Nat.lt_log2_self
    have hExp :
        q.den.log2 + 1 + n ≤ q.num.natAbs.log2 := by
      omega
    have hPow :
        2 ^ (q.den.log2 + 1) * 2 ^ n ≤ q.num.natAbs := by
      rw [← Nat.pow_add]
      exact
        Nat.le_trans (Nat.pow_le_pow_right (by norm_num) hExp)
          hNumPow
    have hProduct : q.den * 2 ^ n ≤ q.num.natAbs :=
      Nat.le_trans
        (Nat.mul_le_mul_right _ (Nat.le_of_lt hDenPow)) hPow
    have hAbs : (q.num.natAbs : Int) = q.num :=
      Int.natAbs_of_nonneg (le_of_lt (Rat.num_pos.mpr hPos))
    have hCast :
        (q.den : Rat) * 2 ^ n ≤ q.num := by
      have hInt : ((q.den * 2 ^ n : Nat) : Int) ≤ q.num := by
        rw [← hAbs]
        exact_mod_cast hProduct
      exact_mod_cast hInt
    have hDen : (0 : Rat) < q.den := by
      exact_mod_cast q.den_pos
    have hValue : q * q.den = q.num := Rat.mul_den_eq_num q
    have hMul : q * q.den < 2 ^ n * q.den :=
      mul_lt_mul_of_pos_right hLess hDen
    linarith

/- A small last digit is a fraction of one. -/
theorem power_nonpos
    {k : Int}
    (hk : k ≤ 0) :
    ∃ m : Nat, power 2 k = 1 / 2 ^ m := by
  cases k with
  | ofNat n =>
      have hZero : n = 0 := by
        have hLe : (n : Int) ≤ 0 := hk
        omega
      subst hZero
      exact ⟨0, by simp [power]⟩
  | negSucc n => exact ⟨n + 1, by simp [power]⟩

theorem two_pow_lt_power
    {n m : Nat}
    (hLess : n < m) : (2 : Rat) ^ n < power 2 (m : Int) := by
  have hValue : power 2 (m : Int) = (2 : Rat) ^ m := by
    simp [power]
  rw [hValue]
  exact pow_lt_pow_right₀ (by norm_num) hLess

/- Rounding does not pass an integer, nor zero. -/
theorem toDouble_bounds
    {q : Rat}
    {n : Nat}
    (hZero : 0 ≤ q)
    (hLe : q ≤ n)
    (hSmall : n < 2 ^ 53) :
    ∃ r, toDouble q = .finite r ∧ 0 ≤ r ∧ r ≤ n := by
  by_cases hq : q = 0
  · subst hq
    exact ⟨0, rfl, le_refl 0, hLe⟩
  · have hPos : 0 < q := lt_of_le_of_ne hZero (Ne.symm hq)
    have hBound : (n : Rat) < 2 ^ 53 := by exact_mod_cast hSmall
    have hLog : floorLog2 |q| < (53 : Nat) := by
      rw [abs_of_pos hPos]
      exact floorLog2_lt hPos (lt_of_le_of_lt hLe hBound)
    rcases
      power_nonpos
        (show max (floorLog2 |q| - 52) (-1074) ≤ 0 by omega)
      with ⟨m, hUlp⟩
    have hTwo : (0 : Rat) < 2 ^ m := by positivity
    have hScaled :
        q / (1 / 2 ^ m) ≤ ((n * 2 ^ m : Nat) : Int) := by
      push_cast
      rw [div_div_eq_mul_div, div_one]
      exact mul_le_mul_of_nonneg_right hLe (le_of_lt hTwo)
    have hScaledPos :
        ((0 : Int) : Rat) ≤ q / (1 / 2 ^ m) := by
      push_cast
      positivity
    have hUpper := roundHalfEven_le hScaled
    have hLower := le_roundHalfEven hScaledPos
    have hUpper' :
        (roundHalfEven (q / (1 / 2 ^ m)) : Rat) ≤
          n * 2 ^ m := by
      exact_mod_cast hUpper
    have hLower' :
        (0 : Rat) ≤ roundHalfEven (q / (1 / 2 ^ m)) := by
      exact_mod_cast hLower
    have hRounded :
        (roundHalfEven (q / (1 / 2 ^ m)) : Rat) *
            (1 / 2 ^ m) ≤ n := by
      rw [mul_one_div, div_le_iff₀ hTwo]
      exact hUpper'
    have hNonneg :
        (0 : Rat) ≤
          (roundHalfEven (q / (1 / 2 ^ m)) : Rat) *
            (1 / 2 ^ m) := by positivity
    refine ⟨_, ?_, hNonneg, hRounded⟩
    unfold toDouble
    rw [if_neg hq]
    dsimp only
    rw [hUlp, abs_of_nonneg hNonneg, if_pos]
    have hMax := two_pow_lt_power (show 53 < 1024 by norm_num)
    have hFinite : (2 : Rat) ^ 53 < power 2 1024 := hMax
    linarith

------------------------------------------------------------
-- Decimal Places
------------------------------------------------------------

theorem power_neg
    (base n : Nat) :
    power base (-(n : Int)) = 1 / base ^ n := by
  cases n with
  | zero => simp [power]
  | succ n =>
      have hNeg : -((n + 1 : Nat) : Int) = .negSucc n := rfl
      rw [hNeg]
      simp [power]

/- `round(value, digits)` stays within the same bounds. -/
theorem Json.roundTo_bounds
    {q : Rat}
    {n : Nat}
    (digits : Nat)
    (hZero : 0 ≤ q)
    (hLe : q ≤ n)
    (hSmall : n < 2 ^ 53) :
    ∃ r,
      Json.roundTo digits (.float (.finite q)) =
          .ok (.float (.finite r)) ∧
        0 ≤ r ∧ r ≤ n := by
  have hTen : (0 : Rat) < 10 ^ digits := by positivity
  have hScale : power 10 (digits : Int) = 10 ^ digits := by
    simp [power]
  have hScaled :
      q * 10 ^ digits ≤ ((n * 10 ^ digits : Nat) : Int) := by
    push_cast
    exact mul_le_mul_of_nonneg_right hLe (le_of_lt hTen)
  have hScaledPos :
      ((0 : Int) : Rat) ≤ q * 10 ^ digits := by
    push_cast
    positivity
  have hUpper :
      (roundHalfEven (q * 10 ^ digits) : Rat) ≤
        n * 10 ^ digits := by
    exact_mod_cast roundHalfEven_le hScaled
  have hLower :
      (0 : Rat) ≤ roundHalfEven (q * 10 ^ digits) := by
    exact_mod_cast le_roundHalfEven hScaledPos
  have hRounded :
      (roundHalfEven (q * 10 ^ digits) : Rat) *
          (1 / 10 ^ digits) ≤ n := by
    rw [mul_one_div, div_le_iff₀ hTen]
    exact hUpper
  rcases toDouble_bounds (by positivity) hRounded hSmall with
    ⟨r, hDouble, hr⟩
  refine ⟨r, ?_, hr⟩
  simp only [Json.roundTo, hScale]
  rw [power_neg, Nat.cast_ofNat, hDouble]

end Python
