import SiteAnalysis.Python.Rounding

/-
  This file proves that rounding to a binary64 number keeps
  the order to every number that binary64 represents, and
  which numbers round to a finite one.

  Key definitions include:
    * `lastPlace`
    * `Represented`
    * `maxDouble`

  Key theorems include:
    * `floorLog2_bounds`
    * `toDouble_le`
    * `le_toDouble`
    * `toDouble_finite`
    * `toDouble_abs_le`
-/

------------------------------------------------------------
-- Powers of Two
------------------------------------------------------------

namespace Python

theorem power_eq_zpow
    (base : Nat)
    (k : Int) : power base k = (base : Rat) ^ k := by
  cases k with
  | ofNat n => simp [power]
  | negSucc n => simp [power, zpow_negSucc]

theorem two_zpow_pos
    (k : Int) : (0 : Rat) < 2 ^ k :=
  zpow_pos (by norm_num) k

theorem two_zpow_le
    {j k : Int}
    (hLe : j ≤ k) : (2 : Rat) ^ j ≤ 2 ^ k :=
  zpow_le_zpow_right₀ (by norm_num) hLe

/- A larger power of two is a multiple of a smaller one. -/
theorem two_zpow_eq_mul
    {j k : Int}
    (hLe : j ≤ k) :
    ∃ n : Nat, (2 : Rat) ^ k = n * 2 ^ j := by
  refine ⟨2 ^ (k - j).toNat, ?_⟩
  push_cast
  rw [← zpow_natCast, Int.toNat_of_nonneg (by omega),
    ← zpow_add₀ (by norm_num)]
  congr 1
  omega

/- The quotient of a number in terms of its parts' lengths. -/
theorem quotient_bounds
    {q : Rat}
    (hPos : 0 < q) :
    let guess : Int := q.num.natAbs.log2 - q.den.log2
    (2 : Rat) ^ (guess - 1) < q ∧ q < 2 ^ (guess + 1) := by
  intro guess
  have hNum : q.num.natAbs ≠ 0 := by
    have hNonzero : q.num ≠ 0 :=
      Rat.num_ne_zero.mpr (ne_of_gt hPos)
    omega
  have hAbs : ((q.num.natAbs : Nat) : Rat) = q.num := by
    have hInt : (q.num.natAbs : Int) = q.num :=
      Int.natAbs_of_nonneg (le_of_lt (Rat.num_pos.mpr hPos))
    rw [← Int.cast_natCast, hInt]
  have hNumLow :
      (2 : Rat) ^ (q.num.natAbs.log2 : Int) ≤ q.num := by
    rw [← hAbs, zpow_natCast]
    exact_mod_cast Nat.log2_self_le hNum
  have hNumHigh :
      (q.num : Rat) < 2 ^ ((q.num.natAbs.log2 : Int) + 1) := by
    have hPow : q.num.natAbs < 2 ^ (q.num.natAbs.log2 + 1) :=
      Nat.lt_log2_self
    rw [← hAbs]
    exact_mod_cast hPow
  have hDenLow : (2 : Rat) ^ (q.den.log2 : Int) ≤ q.den := by
    rw [zpow_natCast]
    exact_mod_cast Nat.log2_self_le q.den_nz
  have hDenHigh :
      (q.den : Rat) < 2 ^ ((q.den.log2 : Int) + 1) := by
    have hPow : q.den < 2 ^ (q.den.log2 + 1) :=
      Nat.lt_log2_self
    exact_mod_cast hPow
  have hDen : (0 : Rat) < q.den := by
    exact_mod_cast q.den_pos
  have hValue : q * q.den = q.num := Rat.mul_den_eq_num q
  constructor
  · by_contra hSmall
    have hLe : q ≤ 2 ^ (guess - 1) := not_lt.mp hSmall
    have hProduct :
        q * q.den <
          2 ^ (guess - 1) * 2 ^ ((q.den.log2 : Int) + 1) :=
      calc
        q * q.den ≤ 2 ^ (guess - 1) * q.den :=
          mul_le_mul_of_nonneg_right hLe (le_of_lt hDen)
        _ < _ :=
          mul_lt_mul_of_pos_left hDenHigh (two_zpow_pos _)
    rw [← zpow_add₀ (by norm_num), hValue] at hProduct
    have hExponent :
        guess - 1 + ((q.den.log2 : Int) + 1) =
          q.num.natAbs.log2 := by
      omega
    rw [hExponent] at hProduct
    linarith
  · by_contra hLarge
    have hLe : 2 ^ (guess + 1) ≤ q := not_lt.mp hLarge
    have hProduct :
        2 ^ (guess + 1) * 2 ^ (q.den.log2 : Int) ≤
          q * q.den :=
      mul_le_mul hLe hDenLow (le_of_lt (two_zpow_pos _))
        (le_of_lt hPos)
    rw [← zpow_add₀ (by norm_num), hValue] at hProduct
    have hExponent :
        guess + 1 + (q.den.log2 : Int) =
          (q.num.natAbs.log2 : Int) + 1 := by
      omega
    rw [hExponent] at hProduct
    linarith

/- The leading digit of a number. -/
theorem floorLog2_bounds
    {q : Rat}
    (hPos : 0 < q) :
    (2 : Rat) ^ floorLog2 q ≤ q ∧
      q < 2 ^ (floorLog2 q + 1) := by
  have hBounds := quotient_bounds hPos
  dsimp only at hBounds
  unfold floorLog2
  dsimp only
  rw [power_eq_zpow]
  split
  · rename_i hBelow
    exact ⟨by exact_mod_cast hBelow, hBounds.2⟩
  · rename_i hNotBelow
    rw [sub_add_cancel]
    refine ⟨le_of_lt hBounds.1, ?_⟩
    exact_mod_cast not_le.mp hNotBelow

/- A number below a power of two has a smaller digit. -/
theorem floorLog2_lt_of_lt
    {q : Rat}
    {k : Int}
    (hPos : 0 < q)
    (hLess : q < 2 ^ k) : floorLog2 q < k :=
  (zpow_lt_zpow_iff_right₀ one_lt_two).mp
    (lt_of_le_of_lt (floorLog2_bounds hPos).1 hLess)

------------------------------------------------------------
-- The Last Place
------------------------------------------------------------

/- The exponent of the last digit that is kept. -/
def lastPlace (q : Rat) : Int :=
  max (floorLog2 |q| - 52) (-1074)

/- The number with its last digits rounded off. -/
def rounded (q : Rat) : Rat :=
  roundHalfEven (q / 2 ^ lastPlace q) * 2 ^ lastPlace q

theorem toDouble_eq
    {q : Rat}
    (hNonzero : q ≠ 0) :
    toDouble q =
      if |rounded q| < 2 ^ (1024 : Int) then
        .finite (rounded q)
      else if 0 < q then
        .posInf
      else
        .negInf := by
  unfold toDouble
  rw [if_neg hNonzero]
  simp only [power_eq_zpow]
  rfl

theorem rounded_of_finite
    {q r : Rat}
    (hDouble : toDouble q = .finite r) :
    (q = 0 ∧ r = 0) ∨
      (q ≠ 0 ∧ r = rounded q ∧ |r| < 2 ^ (1024 : Int)) := by
  by_cases hZero : q = 0
  · subst hZero
    cases hDouble
    exact Or.inl ⟨rfl, rfl⟩
  · right
    rw [toDouble_eq hZero] at hDouble
    split at hDouble
    · rename_i hSmall
      cases hDouble
      exact ⟨hZero, rfl, hSmall⟩
    · split at hDouble
      · cases hDouble
      · cases hDouble

/- The number is a multiple of `2 ^ k`. -/
def IsMultiple
    (k : Int)
    (b : Rat) : Prop :=
  ∃ m : Int, b = m * 2 ^ k

theorem IsMultiple.of_le
    {j k : Int}
    {b : Rat}
    (hLe : j ≤ k)
    (hMultiple : IsMultiple k b) : IsMultiple j b := by
  rcases hMultiple with ⟨m, hm⟩
  rcases two_zpow_eq_mul hLe with ⟨n, hn⟩
  refine ⟨m * n, ?_⟩
  rw [hm, hn, ← mul_assoc]
  push_cast
  rfl

theorem isMultiple_two_zpow
    (k : Int) : IsMultiple k (2 ^ k) :=
  ⟨1, by simp⟩

theorem isMultiple_rounded
    (q : Rat) : IsMultiple (lastPlace q) (rounded q) :=
  ⟨_, rfl⟩

/- Rounding passes no multiple of the last place. -/
theorem rounded_le
    {q b : Rat}
    (hMultiple : IsMultiple (lastPlace q) b)
    (hLe : q ≤ b) : rounded q ≤ b := by
  rcases hMultiple with ⟨m, hm⟩
  have hPlace := two_zpow_pos (lastPlace q)
  have hScaled : q / 2 ^ lastPlace q ≤ (m : Rat) := by
    rw [div_le_iff₀ hPlace, ← hm]
    exact hLe
  have hRound :
      (roundHalfEven (q / 2 ^ lastPlace q) : Rat) ≤ m := by
    exact_mod_cast roundHalfEven_le hScaled
  rw [rounded, hm]
  exact mul_le_mul_of_nonneg_right hRound (le_of_lt hPlace)

theorem le_rounded
    {q b : Rat}
    (hMultiple : IsMultiple (lastPlace q) b)
    (hLe : b ≤ q) : b ≤ rounded q := by
  rcases hMultiple with ⟨m, hm⟩
  have hPlace := two_zpow_pos (lastPlace q)
  have hScaled : (m : Rat) ≤ q / 2 ^ lastPlace q := by
    rw [le_div_iff₀ hPlace, ← hm]
    exact hLe
  have hRound :
      (m : Rat) ≤ roundHalfEven (q / 2 ^ lastPlace q) := by
    exact_mod_cast le_roundHalfEven hScaled
  rw [rounded, hm]
  exact mul_le_mul_of_nonneg_right hRound (le_of_lt hPlace)

------------------------------------------------------------
-- Represented Numbers
------------------------------------------------------------

/- A positive number with at most 53 significant digits. -/
structure Represented
    (e : Int)
    (b : Rat) : Prop where
  positive : 0 < b
  small : b < 2 ^ (e + 53)
  exponent : -1074 ≤ e
  multiple : IsMultiple e b

/- Rounding up stops at a represented number. -/
theorem rounded_le_of_represented
    {e : Int}
    {q b : Rat}
    (hb : Represented e b)
    (hPos : 0 < q)
    (hLe : q ≤ b) : rounded q ≤ b := by
  have hLog : floorLog2 q < e + 53 :=
    floorLog2_lt_of_lt hPos (lt_of_le_of_lt hLe hb.small)
  have hPlace : lastPlace q ≤ e := by
    have hExponent := hb.exponent
    unfold lastPlace
    rw [abs_of_pos hPos]
    omega
  exact rounded_le (hb.multiple.of_le hPlace) hLe

/- Rounding down stops at a represented number. -/
theorem le_rounded_of_represented
    {e : Int}
    {q b : Rat}
    (hb : Represented e b)
    (hLe : b ≤ q) : b ≤ rounded q := by
  have hPos : 0 < q := lt_of_lt_of_le hb.positive hLe
  by_cases hPlace : lastPlace q ≤ e
  · exact le_rounded (hb.multiple.of_le hPlace) hLe
  · have hExponent := hb.exponent
    have hLog :
        e + 53 ≤ floorLog2 q ∧
          lastPlace q ≤ floorLog2 q := by
      unfold lastPlace at hPlace ⊢
      rw [abs_of_pos hPos] at hPlace ⊢
      omega
    have hLeading : 2 ^ floorLog2 q ≤ rounded q :=
      le_rounded
        ((isMultiple_two_zpow _).of_le hLog.2)
        (floorLog2_bounds hPos).1
    calc
      b ≤ 2 ^ (e + 53) := le_of_lt hb.small
      _ ≤ 2 ^ floorLog2 q := two_zpow_le hLog.1
      _ ≤ rounded q := hLeading

theorem toDouble_le
    {e : Int}
    {q b r : Rat}
    (hb : Represented e b)
    (hLe : q ≤ b)
    (hDouble : toDouble q = .finite r) : r ≤ b := by
  rcases rounded_of_finite hDouble with
    ⟨-, rfl⟩ | ⟨hNonzero, rfl, -⟩
  · exact le_of_lt hb.positive
  · rcases lt_or_gt_of_ne hNonzero with hNegative | hPositive
    · have hZero : rounded q ≤ 0 :=
        rounded_le ⟨0, by simp⟩ (le_of_lt hNegative)
      exact le_trans hZero (le_of_lt hb.positive)
    · exact rounded_le_of_represented hb hPositive hLe

theorem le_toDouble
    {e : Int}
    {q b r : Rat}
    (hb : Represented e b)
    (hLe : b ≤ q)
    (hDouble : toDouble q = .finite r) : b ≤ r := by
  have hPos : 0 < q := lt_of_lt_of_le hb.positive hLe
  rcases rounded_of_finite hDouble with
    ⟨hZero, -⟩ | ⟨-, rfl, -⟩
  · exact absurd hZero (ne_of_gt hPos)
  · exact le_rounded_of_represented hb hLe

------------------------------------------------------------
-- Finite Results
------------------------------------------------------------

/- The largest finite number. -/
def maxDouble : Rat := (2 ^ 53 - 1) * 2 ^ (971 : Int)

theorem maxDouble_pos : 0 < maxDouble :=
  mul_pos (by norm_num) (two_zpow_pos 971)

theorem two_zpow_1024 :
    (2 : Rat) ^ (1024 : Int) = 2 ^ 53 * 2 ^ (971 : Int) := by
  have hSum : (1024 : Int) = 53 + 971 := by decide
  rw [hSum, zpow_add₀ (by norm_num), zpow_ofNat 2 53]

theorem maxDouble_lt : maxDouble < 2 ^ (1024 : Int) := by
  rw [maxDouble, two_zpow_1024]
  exact
    mul_lt_mul_of_pos_right (by norm_num) (two_zpow_pos 971)

theorem half_le_maxDouble :
    (2 : Rat) ^ (1023 : Int) ≤ maxDouble := by
  have hSum : (1023 : Int) = 52 + 971 := by decide
  rw [maxDouble, hSum, zpow_add₀ (by norm_num),
    zpow_ofNat 2 52]
  exact
    mul_le_mul_of_nonneg_right (by norm_num)
      (le_of_lt (two_zpow_pos 971))

theorem isMultiple_maxDouble
    {k : Int}
    (hLe : k ≤ 971) :
    IsMultiple k maxDouble ∧ IsMultiple k (-maxDouble) := by
  constructor
  · apply IsMultiple.of_le hLe
    exact ⟨2 ^ 53 - 1, by norm_num [maxDouble]⟩
  · apply IsMultiple.of_le hLe
    exact ⟨-(2 ^ 53 - 1), by norm_num [maxDouble]⟩

/- What lies in the range of the finite numbers stays there. -/
theorem toDouble_finite
    {q : Rat}
    (hRange : |q| ≤ maxDouble) :
    ∃ r, toDouble q = .finite r := by
  by_cases hZero : q = 0
  · subst hZero
    exact ⟨0, rfl⟩
  · have hAbs : 0 < |q| := abs_pos.mpr hZero
    have hLog : floorLog2 |q| < 1024 :=
      floorLog2_lt_of_lt hAbs
        (lt_of_le_of_lt hRange maxDouble_lt)
    have hPlace : lastPlace q ≤ 971 := by
      unfold lastPlace
      omega
    have hMultiple := isMultiple_maxDouble hPlace
    have hUpper :=
      rounded_le hMultiple.1 (abs_le.mp hRange).2
    have hLower :=
      le_rounded hMultiple.2 (abs_le.mp hRange).1
    have hSmall : |rounded q| < 2 ^ (1024 : Int) :=
      lt_of_le_of_lt (abs_le.mpr ⟨hLower, hUpper⟩)
        maxDouble_lt
    exact ⟨_, by rw [toDouble_eq hZero, if_pos hSmall]⟩

/- A finite number is in that range. -/
theorem toDouble_abs_le
    {q r : Rat}
    (hDouble : toDouble q = .finite r) : |r| ≤ maxDouble := by
  rcases rounded_of_finite hDouble with
    ⟨-, rfl⟩ | ⟨hNonzero, rfl, hSmall⟩
  · rw [abs_zero]
    exact le_of_lt maxDouble_pos
  · have hPlacePos := two_zpow_pos 971
    by_cases hPlace : 971 ≤ lastPlace q
    · rcases (isMultiple_rounded q).of_le hPlace with ⟨m, hm⟩
      rw [hm, abs_mul, abs_of_pos hPlacePos, two_zpow_1024]
        at hSmall
      rw [hm, abs_mul, abs_of_pos hPlacePos, maxDouble]
      have hDigits : |(m : Rat)| < 2 ^ 53 :=
        lt_of_mul_lt_mul_right hSmall (le_of_lt hPlacePos)
      have hInt : |m| ≤ 2 ^ 53 - 1 := by
        have hLess : |m| < 2 ^ 53 := by exact_mod_cast hDigits
        omega
      have hCast : |(m : Rat)| ≤ 2 ^ 53 - 1 := by
        exact_mod_cast hInt
      exact
        mul_le_mul_of_nonneg_right hCast (le_of_lt hPlacePos)
    · have hAbs : 0 < |q| := abs_pos.mpr hNonzero
      have hLog : floorLog2 |q| + 1 ≤ 1023 := by
        unfold lastPlace at hPlace
        omega
      have hBelow : |q| ≤ 2 ^ (1023 : Int) :=
        le_trans (le_of_lt (floorLog2_bounds hAbs).2)
          (two_zpow_le hLog)
      have hMultiple :
          IsMultiple (lastPlace q) (2 ^ (1023 : Int)) :=
        (isMultiple_two_zpow 1023).of_le (by omega)
      have hNegative :
          IsMultiple (lastPlace q) (-2 ^ (1023 : Int)) := by
        rcases hMultiple with ⟨m, hm⟩
        exact ⟨-m, by rw [hm]; push_cast; rw [neg_mul]⟩
      have hUpper :=
        rounded_le hMultiple (abs_le.mp hBelow).2
      have hLower :=
        le_rounded hNegative (abs_le.mp hBelow).1
      exact
        le_trans (abs_le.mpr ⟨hLower, hUpper⟩)
          half_le_maxDouble

end Python
