import SiteAnalysis.Python.Binary64

/-
  This file defines the operators that reports apply to
  numbers: comparisons with a literal, `sum`, and the rounded
  mean of a list.

  `roundedMean_ints` reads off from the integers of a list
  whether their rounded mean reaches a whole number.

  Key definitions include:
    * `Json.lessThan`
    * `Json.exceeds`
    * `Json.sum`
    * `roundedMean`

  Key theorems include:
    * `roundedMean_range`
    * `roundedMean_ints`
-/

------------------------------------------------------------
-- Comparisons
------------------------------------------------------------

namespace Python

namespace Json

/- The number that a value is, compared exactly. -/
def number? : Json → Option PyFloat
| .bool b => some (.finite (if b then 1 else 0))
| .int n => some (.finite n)
| .float x => some x
| _ => none

def notSupported
    (operator literal : String)
    (value : Json) : PyError :=
  .typeError
    ("'" ++ operator ++
      "' not supported between instances of '" ++
      value.typeName ++ "' and '" ++ literal ++ "'")

/- `value < bound` for an `int` literal. -/
def lessThan
    (bound : Int)
    (value : Json) : Except PyError Bool :=
  match value.number? with
  | some (.finite q) => .ok (decide (q < bound))
  | some .negInf => .ok true
  | some _ => .ok false
  | none => .error (value.notSupported "<" "int")

/- `value >= bound` for an `int` literal. -/
def atLeast
    (bound : Int)
    (value : Json) : Except PyError Bool :=
  match value.number? with
  | some (.finite q) => .ok (decide (bound ≤ q))
  | some .posInf => .ok true
  | some _ => .ok false
  | none => .error (value.notSupported ">=" "int")

/- `value > bound`; the type of the literal is given. -/
def exceeds
    (literal : String)
    (bound : PyFloat)
    (value : Json) : Except PyError Bool :=
  match value.number?, bound with
  | some (.finite q), .finite b => .ok (decide (b < q))
  | some .posInf, .finite _ => .ok true
  | some _, _ => .ok false
  | none, _ => .error (value.notSupported ">" literal)

end Json

------------------------------------------------------------
-- Sums
------------------------------------------------------------

/- `x + y` -/
def PyFloat.add : PyFloat → PyFloat → PyFloat
| .finite q, .finite r => toDouble (q + r)
| .nan, _ => .nan
| _, .nan => .nan
| .posInf, .negInf => .nan
| .negInf, .posInf => .nan
| .posInf, _ => .posInf
| _, .posInf => .posInf
| .negInf, _ => .negInf
| _, .negInf => .negInf

namespace Json

/- A value of type `int`, or a `bool`, which is one. -/
def int? : Json → Option Int
| .bool b => some (if b then 1 else 0)
| .int n => some n
| _ => none

/- `a + b` for numbers. -/
def add (a b : Json) : Except PyError Json :=
  match a.int?, b.int? with
  | some m, some n => .ok (.int (m + n))
  | _, _ => do
      let x ← a.toFloat
      let y ← b.toFloat
      pure (.float (x.add y))

/- The loop of `sum` with the total so far. -/
def sumFrom : Json → List Json → Except PyError Json
| total, [] => .ok total
| total, value :: values => do
    let next ← total.add value
    sumFrom next values

/-
  `sum(values)` of numbers.  The compensation that newer
  interpreters add changes nothing for one `float` or two.
-/
def sum (values : List Json) : Except PyError Json :=
  sumFrom (.int 0) values

/- `value / count` for an `int` count that is not zero. -/
def divideCount
    (count : Nat) : Json → Except PyError PyFloat
| .bool b => .ok (toDouble ((if b then 1 else 0) / count))
| .int n =>
    match toDouble (n / count) with
    | .finite q => .ok (.finite q)
    | _ =>
        .error
          (.overflowError
            "integer division result too large for a float")
| .float (.finite q) => .ok (toDouble (q / count))
| .float x => .ok x
| other =>
    .error
      (.typeError
        ("unsupported operand type(s) for /: '" ++
          other.typeName ++ "' and 'int'"))

end Json

/- `round(sum(nums) / len(nums)) if nums else None` -/
def roundedMean
    (nums : List Json) : Except PyError (Option Int) :=
  if nums.isEmpty then
    .ok none
  else do
    let total ← Json.sum nums
    let mean ← total.divideCount nums.length
    let score ← Json.roundFloat mean
    pure (some score)

------------------------------------------------------------
-- Means
------------------------------------------------------------

theorem sum_ints
    (ns : List Int) :
    Json.sum (ns.map Json.int) = .ok (.int ns.sum) := by
  have hFrom :
      ∀ total : Int,
        Json.sumFrom (.int total) (ns.map Json.int) =
          .ok (.int (total + ns.sum)) := by
    induction ns with
    | nil =>
        intro total
        simp [Json.sumFrom]
    | cons n ns ih =>
        intro total
        simp only [List.map_cons, Json.sumFrom]
        change Json.sumFrom (.int (total + n)) _ = _
        rw [ih, List.sum_cons, Int.add_assoc]
  have hSum := hFrom 0
  rwa [Int.zero_add] at hSum

theorem roundFloat_eq_ok
    {x : PyFloat}
    {s : Int}
    (hRound : Json.roundFloat x = .ok s) :
    ∃ q, x = .finite q ∧ s = roundHalfEven q := by
  cases x with
  | finite q =>
      cases hRound
      exact ⟨q, rfl, rfl⟩
  | posInf => cases hRound
  | negInf => cases hRound
  | nan => cases hRound

/- A quotient that is finite was rounded to a `float`. -/
theorem divideCount_finite
    {value : Json}
    {count : Nat}
    {q : Rat}
    (hDivide : value.divideCount count = .ok (.finite q)) :
    ∃ p, toDouble p = .finite q := by
  cases value with
  | bool b => exact ⟨_, Except.ok.inj hDivide⟩
  | int n =>
      simp only [Json.divideCount] at hDivide
      split at hDivide
      · rename_i r hDouble
        cases hDivide
        exact ⟨_, hDouble⟩
      · cases hDivide
  | float x =>
      cases x with
      | finite p => exact ⟨_, Except.ok.inj hDivide⟩
      | posInf => cases hDivide
      | negInf => cases hDivide
      | nan => cases hDivide
  | null => cases hDivide
  | str s => cases hDivide
  | arr items => cases hDivide
  | obj fields => cases hDivide

theorem roundHalfEven_abs_le
    {q : Rat}
    (hRange : |q| ≤ maxDouble) :
    |(roundHalfEven q : Rat)| ≤ maxDouble := by
  rcases (isMultiple_maxDouble (k := 0) (by decide)).1 with
    ⟨m, hWhole⟩
  rw [zpow_zero, mul_one] at hWhole
  rw [hWhole] at hRange ⊢
  have hBounds := abs_le.mp hRange
  rw [← Int.cast_neg] at hBounds
  have hAbs : |roundHalfEven q| ≤ m :=
    abs_le.mpr
      ⟨le_roundHalfEven hBounds.1,
        roundHalfEven_le hBounds.2⟩
  exact_mod_cast hAbs

/- The three steps of a mean. -/
theorem roundedMean_eq_some
    {nums : List Json}
    {s : Int} :
    roundedMean nums = .ok (some s) ↔
      nums ≠ [] ∧
        ∃ total, Json.sum nums = .ok total ∧
          ∃ mean,
            total.divideCount nums.length = .ok mean ∧
              Json.roundFloat mean = .ok s := by
  cases nums with
  | nil => simp [roundedMean]
  | cons n ns =>
      simp only [roundedMean, List.isEmpty_cons,
        Bool.false_eq_true, if_false, bind_eq_ok_iff]
      constructor
      · rintro ⟨total, hTotal, mean, hMean, score, hScore,
          hSame⟩
        cases hSame
        exact
          ⟨List.cons_ne_nil _ _, total, hTotal, mean, hMean,
            hScore⟩
      · rintro ⟨-, total, hTotal, mean, hMean, hScore⟩
        exact ⟨total, hTotal, mean, hMean, s, hScore, rfl⟩

/- A rounded mean is in the range of the finite numbers. -/
theorem roundedMean_range
    {nums : List Json}
    {s : Int}
    (hMean : roundedMean nums = .ok (some s)) :
    |(s : Rat)| ≤ maxDouble := by
  rcases roundedMean_eq_some.mp hMean with
    ⟨-, total, -, mean, hDivide, hRound⟩
  rcases roundFloat_eq_ok hRound with ⟨q, rfl, rfl⟩
  rcases divideCount_finite hDivide with ⟨p, hp⟩
  exact roundHalfEven_abs_le (toDouble_abs_le hp)

theorem abs_sum_le
    {ns : List Int}
    (hRange : ∀ n ∈ ns, |(n : Rat)| ≤ maxDouble) :
    |(ns.sum : Rat)| ≤ ns.length * maxDouble := by
  induction ns with
  | nil => simp
  | cons n ns ih =>
      have hFirst := hRange n List.mem_cons_self
      have hRest :=
        ih (fun m hMem =>
          hRange m (List.mem_cons_of_mem _ hMem))
      have hTriangle := abs_add_le (n : Rat) (ns.sum : Rat)
      rw [List.sum_cons, List.length_cons]
      rw [Int.cast_add, Nat.cast_add, Nat.cast_one]
      linarith

/- The mean of integers, in the range of the finite numbers. -/
theorem roundedMean_ints
    {ns : List Int}
    (hNonempty : ns ≠ [])
    (hRange : ∀ n ∈ ns, |(n : Rat)| ≤ maxDouble) :
    ∃ r,
      toDouble ((ns.sum : Rat) / ns.length) = .finite r ∧
        roundedMean (ns.map Json.int) =
          .ok (some (roundHalfEven r)) := by
  have hLength : (0 : Rat) < ns.length := by
    exact_mod_cast List.length_pos_of_ne_nil hNonempty
  have hMean :
      |(ns.sum : Rat) / ns.length| ≤ maxDouble := by
    rw [abs_div, abs_of_pos hLength, div_le_iff₀ hLength,
      mul_comm]
    exact abs_sum_le hRange
  rcases toDouble_finite hMean with ⟨r, hDouble⟩
  refine ⟨r, hDouble, ?_⟩
  apply roundedMean_eq_some.mpr
  refine
    ⟨by simpa using hNonempty, .int ns.sum, sum_ints ns,
      .finite r, ?_, rfl⟩
  rw [List.length_map]
  simp only [Json.divideCount, hDouble]

/- An even number is reached from one half below it. -/
theorem le_roundHalfEven_iff
    {q : Rat}
    {n : Int}
    (hEven : n % 2 = 0) :
    n ≤ roundHalfEven q ↔ (n : Rat) - 1 / 2 ≤ q := by
  have hFloor := Rat.floor_le q
  have hAbove : q < q.floor + 1 := by
    exact_mod_cast Rat.lt_floor_add_one q
  unfold roundHalfEven
  dsimp only
  constructor
  · intro hLe
    by_contra hLess
    have hBelow : q < n - 1 / 2 := not_le.mp hLess
    split at hLe
    · have hCast : (n : Rat) ≤ q.floor := by exact_mod_cast hLe
      linarith
    · rename_i hRest
      have hHalf : 1 / 2 ≤ q - q.floor := not_lt.mp hRest
      have hUp : n ≤ q.floor + 1 := by
        split at hLe
        · exact hLe
        · split at hLe
          · omega
          · exact hLe
      have hCast : (n : Rat) ≤ q.floor + 1 := by
        exact_mod_cast hUp
      linarith
  · intro hLe
    have hNear : n ≤ q.floor + 1 := by
      by_contra hFar
      have hCast : (q.floor : Rat) + 2 ≤ n := by
        have hInt : q.floor + 2 ≤ n := by omega
        exact_mod_cast hInt
      linarith
    by_cases hSame : n ≤ q.floor
    · split
      · exact hSame
      · split
        · exact hNear
        · split
          · exact hSame
          · exact hNear
    · have hNext : n = q.floor + 1 := by omega
      have hCast : (n : Rat) = q.floor + 1 := by
        exact_mod_cast hNext
      have hHalf : 1 / 2 ≤ q - q.floor := by linarith
      rw [if_neg (not_lt.mpr hHalf)]
      split
      · exact hNear
      · have hOdd : q.floor % 2 ≠ 0 := by omega
        rw [if_neg hOdd]
        exact hNear

end Python
