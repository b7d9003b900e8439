import EquivalentCircuit.Arithmetic.Real
import EquivalentCircuit.Sweep.Grid
import Mathlib.Algebra.Order.Field.Basic
import Mathlib.Data.List.Range
import Mathlib.Order.Interval.Set.UnorderedInterval
import Mathlib.Tactic.FieldSimp
import Mathlib.Tactic.Linarith
import Mathlib.Tactic.Ring

/-!
# Progressions

The points of a grid are interpolated between its bounds and not found by stepping. In exact
arithmetic both come to the same: a grid with even spacing is an **arithmetic progression**
(`Grid.linear_eq_map`), and the exponential turns it into a **geometric** one
(`Grid.logarithmic_eq_map`). What the bounds, the neighbours and the order of the points are can be
read off there. The bounds may be equal, or the first one may be the greater one.

About the exponential and the logarithm three laws are used: sums go to products, powers are
positive, and a positive number is the exponential of its logarithm.

## Main results

* `Grid.linear_eq_map` and `Grid.logarithmic_eq_map`: the points of a grid.
* `Grid.logarithmic_eq_nil_iff`: when there is no grid with a constant ratio.
* `Grid.linear_and_logarithmic_progress`: both grids are the progressions that they promise to be.
-/

universe u

namespace EquivalentCircuit.Grid

/-! ### Grids over any number type -/

section Points

variable {α : Type u} [One α] [Add α] [Sub α] [Mul α] [Div α] [NatCast α] (start stop : α) (n : ℕ)

/-- A grid has **as many points** as it is asked for. -/
@[simp] theorem length_linear : (linear start stop n).length = n := by
  rw [linear]
  split
  · exact List.length_replicate
  · rw [List.length_map, List.length_range]

theorem linear_one : linear start stop 1 = [start] := rfl

variable {n} in
/-- The points of a grid that reaches both bounds. -/
theorem linear_of_two_le (h : 2 ≤ n) :
    linear start stop n =
      (List.range n).map fun i : ℕ => interpolate start stop ((i : α) / ((n - 1 : ℕ) : α)) :=
  if_neg (Nat.not_lt.mpr h)

variable [Zero α] [LE α] [DecidableLE α] [Elementary α]

variable {start stop} in
theorem logarithmic_of_le_zero (h : start ≤ 0 ∨ stop ≤ 0) : logarithmic start stop n = [] :=
  if_pos h

variable {start stop} in
theorem logarithmic_of_not_le_zero (hStart : ¬start ≤ 0) (hStop : ¬stop ≤ 0) :
    logarithmic start stop n =
      (linear (Elementary.log start) (Elementary.log stop) n).map Elementary.exp :=
  if_neg (not_or.mpr ⟨hStart, hStop⟩)

/-- There is **no grid** with a constant ratio when a bound is zero or negative, and of course when
no point is asked for. -/
theorem logarithmic_eq_nil_iff : logarithmic start stop n = [] ↔ n = 0 ∨ start ≤ 0 ∨ stop ≤ 0 := by
  by_cases h : start ≤ 0 ∨ stop ≤ 0
  · exact iff_of_true (logarithmic_of_le_zero n h) (.inr h)
  · obtain ⟨hStart, hStop⟩ := not_or.mp h
    rw [logarithmic_of_not_le_zero n hStart hStop, ← List.length_eq_zero_iff, List.length_map,
      length_linear, or_iff_left h]

end Points

variable {K : Type u} [Field K]

/-! ### Arithmetic progressions -/

/-- The **distance between neighbours** in a grid with even spacing. -/
def spacing (start stop : K) (n : ℕ) : K :=
  (stop - start) / ((n - 1 : ℕ) : K)

/-- Interpolating is going a part of the way. -/
theorem interpolate_eq (start stop share : K) :
    interpolate start stop share = start + share * (stop - start) := by
  rw [interpolate]
  ring

/-- A grid with even spacing is an **arithmetic progression**. -/
theorem linear_eq_map (start stop : K) (n : ℕ) :
    linear start stop n = (List.range n).map fun i : ℕ => start + i * spacing start stop n := by
  rcases Nat.lt_or_ge n 2 with hFew | hMany
  · -- A single point lies at the start, where a step of no length leads as well.
    rcases Nat.le_one_iff_eq_zero_or_eq_one.mp (Nat.le_of_lt_succ hFew) with rfl | rfl
    · rfl
    · simp [linear_one]
  · rw [linear_of_two_le start stop hMany]
    refine List.map_congr_left fun i _ => ?_
    rw [interpolate_eq, spacing]
    ring

section Linear

variable [LinearOrder K] [IsStrictOrderedRing K] {start stop : K} {n : ℕ}

/-- The last step leads to the other bound. -/
theorem add_mul_spacing (h : 2 ≤ n) : start + ((n - 1 : ℕ) : K) * spacing start stop n = stop := by
  have hSteps : ((n - 1 : ℕ) : K) ≠ 0 := Nat.cast_ne_zero.mpr (by omega)
  rw [spacing, mul_div_cancel₀ _ hSteps, add_sub_cancel]

theorem head?_linear (h : 2 ≤ n) : (linear start stop n).head? = some start := by
  rw [linear_eq_map, List.head?_map, List.head?_range, if_neg (by omega)]
  simp

theorem getLast?_linear (h : 2 ≤ n) : (linear start stop n).getLast? = some stop := by
  rw [linear_eq_map, List.getLast?_map, List.getLast?_range, if_neg (by omega)]
  exact congrArg some (add_mul_spacing h)

omit [LinearOrder K] [IsStrictOrderedRing K] in
/-- Neighbours have **the same distance**. -/
theorem isChain_linear :
    (linear start stop n).IsChain fun point next => next - point = spacing start stop n := by
  rw [linear_eq_map, List.isChain_map, List.isChain_range]
  intro i _
  push_cast
  ring

/-- The way to a later point leads on in the direction of the other bound. -/
theorem pairwise_linear : (linear start stop n).Pairwise fun point later =>
    ∃ share : K, 0 ≤ share ∧ later = point + share * (stop - start) := by
  rw [linear_eq_map, List.pairwise_map]
  refine List.pairwise_lt_range.imp fun {i j} hLess => ⟨(j - i) / ((n - 1 : ℕ) : K), ?_, ?_⟩
  · have hLess : (i : K) ≤ j := Nat.cast_le.mpr (Nat.le_of_lt hLess)
    exact div_nonneg (sub_nonneg.mpr hLess) (Nat.cast_nonneg _)
  · rw [spacing]
    ring

/-- A grid between bounds in order is **increasing**. -/
theorem pairwise_le_linear (h : start ≤ stop) : (linear start stop n).Pairwise (· ≤ ·) := by
  refine pairwise_linear.imp fun {point later} hLater => ?_
  obtain ⟨share, hShare, rfl⟩ := hLater
  exact le_add_of_nonneg_right (mul_nonneg hShare (sub_nonneg.mpr h))

/-- A grid between bounds in the other order is **decreasing**. -/
theorem pairwise_ge_linear (h : stop ≤ start) : (linear start stop n).Pairwise (· ≥ ·) := by
  refine pairwise_linear.imp fun {point later} hLater => ?_
  obtain ⟨share, hShare, rfl⟩ := hLater
  exact add_le_of_nonpos_right (mul_nonpos_of_nonneg_of_nonpos hShare (sub_nonpos.mpr h))

/-- A grid stays **between its bounds**. -/
theorem mem_uIcc_of_mem_linear {point : K} (h : point ∈ linear start stop n) :
    point ∈ Set.uIcc start stop := by
  rw [linear_eq_map] at h
  obtain ⟨i, hMem, rfl⟩ := List.mem_map.mp h
  -- With one point the share is 0 / 0, which is 0 in a field.
  have hLe : (i : K) ≤ ((n - 1 : ℕ) : K) :=
    Nat.cast_le.mpr (Nat.le_sub_one_of_lt (List.mem_range.mp hMem))
  have hShare : 0 ≤ (i : K) / ((n - 1 : ℕ) : K) := by positivity
  have hShare' : (i : K) / ((n - 1 : ℕ) : K) ≤ 1 := div_le_one_of_le₀ hLe (Nat.cast_nonneg _)
  have hPoint : start + i * spacing start stop n =
      start + i / ((n - 1 : ℕ) : K) * (stop - start) := by
    rw [spacing]
    ring
  rw [hPoint]
  generalize (i : K) / ((n - 1 : ℕ) : K) = share at *
  rcases le_total start stop with hOrder | hOrder
  · rw [Set.uIcc_of_le hOrder]
    constructor <;> nlinarith
  · rw [Set.uIcc_of_ge hOrder]
    constructor <;> nlinarith

end Linear

/-! ### Geometric progressions -/

section Logarithmic

variable [LinearOrder K] [IsStrictOrderedRing K] [Elementary K] {start stop : K} {n : ℕ}

/-- The **ratio of neighbours** in a grid with a constant ratio. -/
def ratio (start stop : K) (n : ℕ) : K :=
  Elementary.exp (spacing (Elementary.log start) (Elementary.log stop) n)

variable (hAdd : ∀ x y : K, Elementary.exp (x + y) = Elementary.exp x * Elementary.exp y)
  (hLog : ∀ x : K, 0 < x → Elementary.exp (Elementary.log x) = x)

include hAdd in
omit [LinearOrder K] [IsStrictOrderedRing K] in
/-- Equal steps become powers of one ratio. -/
theorem exp_add_natCast_mul (x step : K) (i : ℕ) :
    Elementary.exp (x + i * step) = Elementary.exp x * Elementary.exp step ^ i := by
  induction i with
  | zero => simp
  | succ i ih =>
      have hStep : x + (i + 1 : ℕ) * step = x + i * step + step := by
        push_cast
        ring
      rw [hStep, hAdd, ih, pow_succ, mul_assoc]

include hAdd hLog

omit [IsStrictOrderedRing K] in
/-- A grid with a constant ratio is a **geometric progression**. -/
theorem logarithmic_eq_map (hStart : 0 < start) (hStop : 0 < stop) :
    logarithmic start stop n = (List.range n).map fun i : ℕ => start * ratio start stop n ^ i := by
  rw [logarithmic_of_not_le_zero n hStart.not_ge hStop.not_ge, linear_eq_map, List.map_map]
  refine List.map_congr_left fun i _ => ?_
  rw [Function.comp_apply, exp_add_natCast_mul hAdd, hLog start hStart]
  rfl

/-- The last step leads to the other bound. -/
theorem mul_ratio_pow (hStart : 0 < start) (hStop : 0 < stop) (h : 2 ≤ n) :
    start * ratio start stop n ^ (n - 1) = stop := by
  calc start * ratio start stop n ^ (n - 1)
      = Elementary.exp (Elementary.log start) * ratio start stop n ^ (n - 1) := by
        rw [hLog start hStart]
    _ = Elementary.exp (Elementary.log stop) := by
        rw [ratio, ← exp_add_natCast_mul hAdd, add_mul_spacing h]
    _ = stop := hLog stop hStop

omit [IsStrictOrderedRing K] in
theorem head?_logarithmic (hStart : 0 < start) (hStop : 0 < stop) (h : 2 ≤ n) :
    (logarithmic start stop n).head? = some start := by
  rw [logarithmic_eq_map hAdd hLog hStart hStop, List.head?_map, List.head?_range,
    if_neg (by omega)]
  simp

theorem getLast?_logarithmic (hStart : 0 < start) (hStop : 0 < stop) (h : 2 ≤ n) :
    (logarithmic start stop n).getLast? = some stop := by
  rw [logarithmic_eq_map hAdd hLog hStart hStop, List.getLast?_map, List.getLast?_range,
    if_neg (by omega)]
  exact congrArg some (mul_ratio_pow hAdd hLog hStart hStop h)

variable (hPos : ∀ x : K, 0 < Elementary.exp x)

include hPos

/-- The points of a grid with a constant ratio are **positive**. -/
theorem pos_of_mem_logarithmic (hStart : 0 < start) (hStop : 0 < stop) {point : K}
    (h : point ∈ logarithmic start stop n) : 0 < point := by
  rw [logarithmic_eq_map hAdd hLog hStart hStop] at h
  obtain ⟨i, -, rfl⟩ := List.mem_map.mp h
  exact mul_pos hStart (pow_pos (hPos _) i)

/-- Neighbours have **the same ratio**. -/
theorem isChain_logarithmic (hStart : 0 < start) (hStop : 0 < stop) :
    (logarithmic start stop n).IsChain fun point next =>
      next / point = ratio start stop n := by
  rw [logarithmic_eq_map hAdd hLog hStart hStop, List.isChain_map, List.isChain_range]
  intro i _
  have hRatio : ratio start stop n ≠ 0 := (hPos _).ne'
  have hStart : start ≠ 0 := hStart.ne'
  rw [Nat.succ_eq_add_one, pow_succ]
  field_simp

end Logarithmic

/-! ### Both grids -/

/-- **Grids are progressions.** A grid with even spacing has as many points as it is asked for. With
two points or more it begins and ends at its bounds, and neighbours differ by exactly an equal
part of the way. It is increasing or decreasing as its bounds are, and stays between them.

With an exponential that turns sums into products and is positive, and a logarithm that it undoes,
a grid with a constant ratio is empty if a bound is zero or negative. Otherwise it has as many
points as it is asked for, all of them positive, and with two points or more it begins and ends at
its bounds, and all neighbours have the same ratio. -/
theorem linear_and_logarithmic_progress [LinearOrder K] [IsStrictOrderedRing K] [Elementary K]
    (start stop : K) (n : ℕ) :
    (linear start stop n).length = n ∧
    (2 ≤ n → (linear start stop n).head? = some start ∧
      (linear start stop n).getLast? = some stop ∧
      (linear start stop n).IsChain fun point next =>
        next - point = (stop - start) / ((n : K) - 1)) ∧
    (start ≤ stop → (linear start stop n).Pairwise (· ≤ ·)) ∧
    (stop ≤ start → (linear start stop n).Pairwise (· ≥ ·)) ∧
    (∀ point ∈ linear start stop n, point ∈ Set.uIcc start stop) ∧
    ((∀ x y : K, Elementary.exp (x + y) = Elementary.exp x * Elementary.exp y) →
      (∀ x : K, 0 < Elementary.exp x) →
      (∀ x : K, 0 < x → Elementary.exp (Elementary.log x) = x) →
      (start ≤ 0 ∨ stop ≤ 0 → logarithmic start stop n = []) ∧
      (0 < start → 0 < stop →
        (logarithmic start stop n).length = n ∧
        (∀ point ∈ logarithmic start stop n, 0 < point) ∧
        (2 ≤ n → (logarithmic start stop n).head? = some start ∧
          (logarithmic start stop n).getLast? = some stop ∧
          ∃ common : K, 0 < common ∧ common ^ (n - 1) = stop / start ∧
            (logarithmic start stop n).IsChain fun point next => next / point = common))) := by
  refine ⟨length_linear start stop n, fun h => ⟨head?_linear h, getLast?_linear h, ?_⟩,
    pairwise_le_linear, pairwise_ge_linear, fun _ => mem_uIcc_of_mem_linear,
    fun hAdd hPos hLog => ⟨logarithmic_of_le_zero n, fun hStart hStop => ⟨?_, ?_, fun h => ?_⟩⟩⟩
  · have hSteps : ((n - 1 : ℕ) : K) = (n : K) - 1 := by
      rw [Nat.cast_sub (by omega), Nat.cast_one]
    exact hSteps ▸ isChain_linear
  · rw [logarithmic_of_not_le_zero n hStart.not_ge hStop.not_ge, List.length_map, length_linear]
  · exact fun _ => pos_of_mem_logarithmic hAdd hLog hPos hStart hStop
  · refine ⟨head?_logarithmic hAdd hLog hStart hStop h,
      getLast?_logarithmic hAdd hLog hStart hStop h, ratio start stop n, hPos _, ?_,
      isChain_logarithmic hAdd hLog hPos hStart hStop⟩
    rw [eq_div_iff hStart.ne', mul_comm]
    exact mul_ratio_pow hAdd hLog hStart hStop h

/-- Four points between 1 and 1000, over the real numbers: steps of 333 and decades. -/
theorem progress_over_three_decades :
    (∀ x y : ℝ, Elementary.exp (x + y) = Elementary.exp x * Elementary.exp y) ∧
      (∀ x : ℝ, 0 < Elementary.exp x) ∧
      (∀ x : ℝ, 0 < x → Elementary.exp (Elementary.log x) = x) ∧
      (linear (1 : ℝ) 1000 4).IsChain (fun point next => next - point = 333) ∧
      (linear (1 : ℝ) 1000 4).Pairwise (· ≤ ·) ∧
      (logarithmic (1 : ℝ) 1000 4).head? = some 1 ∧
      (logarithmic (1 : ℝ) 1000 4).getLast? = some 1000 ∧
      (logarithmic (1 : ℝ) 1000 4).IsChain (fun point next => next / point = 10) := by
  obtain ⟨-, hLinear, hIncreasing, -, -, hLogarithmic⟩ :=
    linear_and_logarithmic_progress (1 : ℝ) 1000 4
  obtain ⟨-, -, hSpacing⟩ := hLinear (by norm_num)
  obtain ⟨-, hPositive⟩ :=
    hLogarithmic Real.exp_add Real.exp_pos fun _ => Real.exp_log
  obtain ⟨-, -, hMany⟩ := hPositive one_pos (by norm_num)
  obtain ⟨hHead, hLast, common, hCommon, hPower, hRatio⟩ := hMany (by norm_num)
  have hSteps : ((1000 : ℝ) - 1) / ((4 : ℕ) - 1) = 333 := by norm_num
  have hCube : common ^ 3 = 10 ^ 3 := hPower.trans (by norm_num)
  obtain rfl : common = 10 := (pow_left_inj₀ hCommon.le (by norm_num) (by norm_num)).mp hCube
  exact ⟨Real.exp_add, Real.exp_pos, fun _ => Real.exp_log, hSteps ▸ hSpacing,
    hIncreasing (by norm_num), hHead, hLast, hRatio⟩

end EquivalentCircuit.Grid
