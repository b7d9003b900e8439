import EquivalentCircuit.Proofs.Approximation
import EquivalentCircuit.Proofs.Progressions

/-!
# Rounded Grids

In double precision a point of a grid is interpolated with four roundings, and with two more in the
share of the way at which it lies. Between bounds of moderate size these errors stay far below one
(`Grid.forall₂_isWithin_linear`): the rounded grid follows the exact one point by point.

At bounds that are infinite or NaN there is nothing to follow. The point at the start multiplies
the other bound by zero, so that it is NaN if that bound is not finite
(`Grid.isNaN_interpolate`), although it lies at the start.

## Main results

* `Grid.isWithin_interpolate`: the error of a point.
* `Grid.forall₂_isWithin_linear`: the rounded grid beside the exact one.
* `Grid.isNaN_interpolate` and `Grid.interpolate_infinity`: the point at the start.
-/

universe u

namespace EquivalentCircuit

/-- A member of one of two lists that are related member by member has a partner in the other. -/
theorem exists_mem_of_forall₂ {α β : Type u} {relation : α → β → Prop} {first : List α}
    {second : List β} (h : List.Forall₂ relation first second) {member : α}
    (hMem : member ∈ first) : ∃ partner ∈ second, relation member partner := by
  obtain ⟨i, rfl⟩ := List.mem_iff_get.mp hMem
  have hIndex : i < second.length := by
    rw [← h.length_eq]
    exact i.isLt
  exact ⟨_, List.get_mem second ⟨i, hIndex⟩, h.get i.isLt hIndex⟩

/-- The error of a quotient that is no more than one. -/
theorem abs_div_sub_div_le {a b x y error : ℚ} (ha : |a - x| ≤ y * error)
    (hb : |b - y| ≤ y * error) (hx : 0 ≤ x) (hxy : x ≤ y) (hy : 0 < y) (hError : error ≤ 1 / 2) :
    |a / b - x / y| ≤ 4 * error := by
  have hError' : 0 ≤ error := (mul_nonneg_iff_of_pos_left hy).mp ((abs_nonneg _).trans hb)
  have hHalf : y / 2 ≤ b := by
    have hLow := (abs_le.mp hb).1
    nlinarith
  have hPos : 0 < b := by linarith
  have hDifference : a / b - x / y = ((a - x) * y - x * (b - y)) / (b * y) := by
    field_simp
    ring
  rw [hDifference, abs_div, abs_of_pos (mul_pos hPos hy), div_le_iff₀ (mul_pos hPos hy)]
  calc |(a - x) * y - x * (b - y)| ≤ |(a - x) * y| + |x * (b - y)| := abs_sub _ _
    _ = |a - x| * y + x * |b - y| := by rw [abs_mul, abs_mul, abs_of_pos hy, abs_of_nonneg hx]
    _ ≤ y * error * y + y * (y * error) := by gcongr
    _ = 4 * error * (y / 2 * y) := by ring
    _ ≤ 4 * error * (b * y) := by gcongr

namespace Binary64

/-! ### Errors of compound operations -/

/-- The **share** of the way at which a point of a grid lies. -/
theorem isWithin_share {i last : ℕ} (hLe : i ≤ last) (hPos : 0 < last) (hLast : last < 2 ^ 64) :
    ((i : Binary64) / (last : Binary64)).IsWithin (1 / 2 ^ 40) ((i : ℚ) / last) := by
  obtain ⟨hFinite, hError⟩ := isWithin_natCast (hLe.trans_lt hLast)
  obtain ⟨hFinite', hError'⟩ := isWithin_natCast hLast
  have hCount : (i : ℚ) ≤ last := Nat.cast_le.mpr hLe
  have hOne : (1 : ℚ) ≤ last := Nat.one_le_cast.mpr hPos
  have hExact : |(i : ℚ) / last| ≤ 1 := by
    rw [abs_of_nonneg (by positivity)]
    exact div_le_one_of_le₀ hCount (by positivity)
  have hQuotient : |(i : Binary64).value / (last : Binary64).value - i / last| ≤
      4 * (1 / 2 ^ 47) :=
    abs_div_sub_div_le (hError.trans (by linarith)) (hError'.trans (by linarith))
      (Nat.cast_nonneg i) hCount (by linarith) (by norm_num)
  have hNonzero : (last : Binary64).value ≠ 0 := by
    have hLow := (abs_le.mp hError').1
    intro hZero
    linarith
  have hShare := isWithin_of_near (isWithin_div hFinite hFinite' hNonzero) hExact hQuotient
    (by norm_num)
  exact hShare.mono (by norm_num)

/-- The **rest** of the way. -/
theorem isWithin_one_sub {share : Binary64} {exact : ℚ} (h : share.IsWithin (1 / 2 ^ 40) exact)
    (hLow : 0 ≤ exact) (hHigh : exact ≤ 1) : (1 - share).IsWithin (1 / 2 ^ 39) (1 - exact) := by
  have hExact : |1 - exact| ≤ 1 := abs_le.mpr ⟨by linarith, by linarith⟩
  have hNear : |value 1 - share.value - (1 - exact)| ≤ 1 / 2 ^ 40 := by
    rw [value_one, sub_sub_sub_cancel_left, abs_sub_comm]
    exact h.2
  have hRest := isWithin_of_near (isWithin_sub rfl h.1) hExact hNear (by norm_num)
  exact hRest.mono (by norm_num)

/-- A bound times a part of the way. -/
theorem isWithin_mul_part {bound part : Binary64} {exact : ℚ} (hFinite : bound.isFinite = true)
    (hBound : |bound.value| ≤ 1000) (h : part.IsWithin (1 / 2 ^ 39) exact) (hLow : 0 ≤ exact)
    (hHigh : exact ≤ 1) : (bound * part).IsWithin (1001 / 2 ^ 39) (bound.value * exact) := by
  have hExact : |bound.value * exact| ≤ 1000 * 1 := by
    rw [abs_mul, abs_of_nonneg hLow]
    gcongr
  have hNear : |bound.value * part.value - bound.value * exact| ≤ 1000 * (1 / 2 ^ 39) := by
    rw [← mul_sub, abs_mul]
    exact mul_le_mul hBound h.2 (abs_nonneg _) (by norm_num)
  have hProduct := isWithin_of_near (isWithin_mul hFinite h.1) hExact hNear (by norm_num)
  exact hProduct.mono (by norm_num)

end Binary64

namespace Grid

open Binary64

/-! ### Points between moderate bounds -/

section Moderate

variable {start stop : Binary64} {n : ℕ} (hStart : start.isFinite = true)
  (hStop : stop.isFinite = true) (hBound : |start.value| ≤ 1000) (hBound' : |stop.value| ≤ 1000)

include hStart hStop hBound hBound'

/-- **A point** between moderate bounds is right up to rounding. -/
theorem isWithin_interpolate {share : Binary64} {exact : ℚ}
    (h : share.IsWithin (1 / 2 ^ 40) exact) (hLow : 0 ≤ exact) (hHigh : exact ≤ 1) :
    (interpolate start stop share).IsWithin (1 / 2 ^ 28)
      (interpolate start.value stop.value exact) := by
  obtain ⟨hFinite, hError⟩ := isWithin_mul_part hStart hBound (isWithin_one_sub h hLow hHigh)
    (sub_nonneg.mpr hHigh) (sub_le_self 1 hLow)
  obtain ⟨hFinite', hError'⟩ :=
    isWithin_mul_part hStop hBound' (h.mono (by norm_num)) hLow hHigh
  have hExact : |start.value * (1 - exact) + stop.value * exact| ≤ 1000 := by
    calc |start.value * (1 - exact) + stop.value * exact|
        ≤ |start.value * (1 - exact)| + |stop.value * exact| := abs_add_le _ _
      _ = |start.value| * (1 - exact) + |stop.value| * exact := by
        rw [abs_mul, abs_mul, abs_of_nonneg (sub_nonneg.mpr hHigh), abs_of_nonneg hLow]
      _ ≤ 1000 * (1 - exact) + 1000 * exact := by gcongr
      _ = 1000 := by ring
  have hNear : |(start * (1 - share)).value + (stop * share).value -
      (start.value * (1 - exact) + stop.value * exact)| ≤ 2 * (1001 / 2 ^ 39) := by
    rw [add_sub_add_comm, two_mul]
    exact (abs_add_le _ _).trans (add_le_add hError hError')
  have hSum := isWithin_of_near (isWithin_add hFinite hFinite') hExact hNear (by norm_num)
  exact hSum.mono (by norm_num)

/-- **The rounded grid** between moderate bounds follows the exact one, point by point. -/
theorem forall₂_isWithin_linear (hn : n < 2 ^ 64) :
    List.Forall₂ (fun point exact => point.IsWithin (1 / 2 ^ 28) exact)
      (linear start stop n) (linear start.value stop.value n) := by
  rcases Nat.lt_or_ge n 2 with hFew | hMany
  · rw [linear, linear, if_pos hFew, if_pos hFew, List.forall₂_iff_get]
    refine ⟨by simp, fun i _ _ => ?_⟩
    simp only [List.get_eq_getElem, List.getElem_replicate]
    exact ⟨hStart, by norm_num⟩
  · rw [linear_of_two_le _ _ hMany, linear_of_two_le _ _ hMany, List.forall₂_map_left_iff,
      List.forall₂_map_right_iff, List.forall₂_same]
    intro i hMem
    have hLe : i ≤ n - 1 := Nat.le_sub_one_of_lt (List.mem_range.mp hMem)
    exact isWithin_interpolate hStart hStop hBound hBound'
      (isWithin_share hLe (by omega) (by omega)) (by positivity)
      (div_le_one_of_le₀ (Nat.cast_le.mpr hLe) (Nat.cast_nonneg _))

/-- A point between moderate bounds is finite, and leaves the range of the bounds by very little. -/
theorem isFinite_of_mem_linear (hn : n < 2 ^ 64) {point : Binary64}
    (h : point ∈ linear start stop n) :
    point.isFinite = true ∧ point.value ≤ max start.value stop.value + 1 / 2 ^ 28 := by
  obtain ⟨exact, hMem, hFinite, hError⟩ :=
    exists_mem_of_forall₂ (forall₂_isWithin_linear hStart hStop hBound hBound' hn) h
  have hBetween := (mem_uIcc_of_mem_linear hMem).2
  exact ⟨hFinite, by linarith [(abs_le.mp hError).2]⟩

end Moderate

/-! ### The point at the start -/

section Start

variable {start stop share : Binary64} (h : (share == 0) = true)

include h

/-- At the start the other bound is multiplied by zero, which is **undefined** unless that bound is
finite. -/
theorem isNaN_interpolate (hBound : start.isNaN = true ∨ stop.isFinite = false) :
    (interpolate start stop share).isNaN = true := by
  rw [interpolate, isNaN_add, isNaN_mul, isNaN_mul, h]
  rw [isFinite_eq_not, Bool.and_eq_false_iff, Bool.not_eq_false', Bool.not_eq_false'] at hBound
  rcases hBound with hStart | hNaN | hInfinite
  · simp [hStart]
  · simp [hNaN]
  · simp [hInfinite]

/-- Nothing is left out at the start. -/
theorem unpacked_one_sub : (1 - share).unpacked = unpacked 1 := by
  rw [beq_zero_eq] at h
  rw [Binary64.sub_eq_add_neg, unpacked_add, unpacked_neg]
  generalize share.unpacked = number at *
  cases number with
  | zero => exact overflowed_unpacked 1
  | _ => cases h

/-- A grid that **starts at infinity** does so also when it is rounded. -/
theorem interpolate_infinity (hStop : stop.isFinite = true) :
    interpolate infinity stop share = infinity := by
  have hOne := unpacked_one_sub h
  rw [beq_zero_eq] at h
  rw [isFinite_eq] at hStop
  refine eq_infinity_of_unpacked ?_
  rw [interpolate, unpacked_add, unpacked_mul, unpacked_mul, hOne]
  generalize share.unpacked = v at *
  generalize stop.unpacked = u at *
  cases v with
  | zero =>
      cases u with
      | zero | finite => rfl
      | _ => cases hStop
  | _ => cases h

end Start

/-- The first point of a grid with more than one lies **at the start**. -/
theorem exists_interpolate_mem_linear (start stop : Binary64) {n : ℕ} (hMany : 2 ≤ n)
    (hn : n < 2 ^ 64) :
    ∃ share : Binary64,
      (share == 0) = true ∧ interpolate start stop share ∈ linear start stop n := by
  refine ⟨((0 : ℕ) : Binary64) / ((n - 1 : ℕ) : Binary64), ?_, ?_⟩
  · obtain ⟨hFinite, hError⟩ := isWithin_natCast (n := n - 1) (by omega)
    have hOne : (1 : ℚ) ≤ (n - 1 : ℕ) := Nat.one_le_cast.mpr (by omega)
    have hPos : 0 < ((n - 1 : ℕ) : Binary64).value := by linarith [(abs_le.mp hError).1]
    generalize ((n - 1 : ℕ) : Binary64) = last at *
    rw [isFinite_eq] at hFinite
    rw [Binary64.value] at hPos
    rw [beq_zero_eq, unpacked_div]
    generalize last.unpacked = number at *
    cases number with
    | finite => rfl
    | zero => exact absurd hPos (lt_irrefl 0)
    | _ => cases hFinite
  · rw [linear_of_two_le start stop hMany]
    exact List.mem_map_of_mem (List.mem_range.mpr (by omega))

end Grid

end EquivalentCircuit
