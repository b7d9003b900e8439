import EquivalentCircuit.Proofs.Rounding

/-!
# Bounds on Unpacked Numbers

Two bounds by powers of two: `AtLeast order` for numbers that are not negative and not below
`2 ^ order`, the positive infinity included, and `AtMost order` for finite numbers of either sign
below `2 ^ (order + 1)`. Rounding respects both, by orders, and so do the operations that a
squared absolute value and a reciprocal consist of.

## Main results

* `Unpacked.IsNonnegative.add_atLeast`: adding a number that is not negative keeps a lower bound.
* `Unpacked.square_atLeast`: the square of a number has twice its order, unless that is too small.
* `Unpacked.div_atMost` and `Unpacked.add_atMost`: upper bounds of quotients and sums.
-/

namespace EquivalentCircuit.Unpacked

open Float.Model (Format UnpackedFloat)
open Float.Model.UnpackedFloat

/-- A number is **at least** the power of two with a given exponent. -/
def AtLeast (order : Int) : UnpackedFloat → Prop
  | .infinity .positive => True
  | .finite .positive mantissa exponent _ => order ≤ mantissa.log2 + exponent
  | _ => False

/-- A number is finite and its **order is at most** the given one. -/
def AtMost (order : Int) : UnpackedFloat → Prop
  | .zero _ => True
  | .finite _ mantissa exponent _ => mantissa.log2 + exponent ≤ order
  | _ => False

/-- A number that is **not negative**, as rounding gives it: the least order is -1074. -/
inductive IsNonnegative : UnpackedFloat → Prop
  | zero : IsNonnegative (.zero .positive)
  | infinity : IsNonnegative (.infinity .positive)
  | finite {mantissa : Nat} {exponent : Int} (hPos : 0 < mantissa)
      (hOrder : -1074 ≤ mantissa.log2 + exponent) :
      IsNonnegative (.finite .positive mantissa exponent hPos)

/-! ### Lower bounds -/

namespace AtLeast

variable {order : Int} {number : UnpackedFloat}

theorem mono (h : AtLeast order number) {low : Int} (hLow : low ≤ order) : AtLeast low number := by
  rcases number with ⟨_ | _⟩ | _ | _ | ⟨_ | _, _, _, _⟩
  case infinity.positive => trivial
  case finite.positive => exact Int.le_trans hLow h
  all_goals exact h.elim

theorem overflowed (h : AtLeast order number) : AtLeast order (overflowed number) := by
  rcases number with ⟨_ | _⟩ | _ | _ | ⟨_ | _, _, _, _⟩
  case infinity.positive => trivial
  case finite.positive =>
    rw [Unpacked.overflowed]
    split
    · trivial
    · exact h
  all_goals exact h.elim

end AtLeast

theorem Rounds.atLeast {low high : Int} {number : UnpackedFloat}
    (h : Rounds .positive low high number) (hLow : -1074 ≤ low) : AtLeast low number := by
  cases h with
  | zero hZero => omega
  | finite _ _ hOrder => exact hOrder

/-- **Squares**: twice the order, if it is an order of numbers at all. -/
theorem square_atLeast (sign : Sign) {mantissa : Nat} {exponent : Int} (hPos : 0 < mantissa)
    (hCanonical : IsCanonical mantissa exponent)
    (hOrder : -1074 ≤ 2 * (mantissa.log2 + exponent)) :
    AtLeast (2 * (mantissa.log2 + exponent)) (UnpackedFloat.mul Format.binary64
      (.finite sign mantissa exponent hPos) (.finite sign mantissa exponent hPos)) := by
  have hSign : sign * sign = .positive := by cases sign <;> rfl
  have hRounds := mul_rounds hPos hPos sign sign hCanonical hCanonical
  rw [hSign] at hRounds
  exact (hRounds.atLeast (by omega)).mono (by omega)

/-! ### Numbers that are not negative -/

theorem Rounds.isNonnegative {low high : Int} {number : UnpackedFloat}
    (h : Rounds .positive low high number) : IsNonnegative number := by
  cases h with
  | zero => exact .zero
  | finite hPos hCanonical =>
      obtain ⟨-, hLeast, -⟩ := hCanonical
      exact .finite hPos (by omega)

theorem isNonnegative_square {number : UnpackedFloat} (hRounded : IsRounded number)
    (hNaN : number.isNaN = false) :
    IsNonnegative (UnpackedFloat.mul Format.binary64 number number) := by
  rcases number with ⟨_ | _⟩ | _ | ⟨_ | _⟩ | ⟨_ | _, mantissa, exponent, hPos⟩
  case finite.negative =>
    exact (mul_rounds hPos hPos .negative .negative hRounded hRounded).isNonnegative
  case finite.positive =>
    exact (mul_rounds hPos hPos .positive .positive hRounded hRounded).isNonnegative
  case notANumber => cases hNaN
  case zero.negative | zero.positive => exact .zero
  case infinity.negative | infinity.positive => exact .infinity

namespace IsNonnegative

variable {number u v : UnpackedFloat}

theorem overflowed (h : IsNonnegative number) : IsNonnegative (overflowed number) := by
  cases h with
  | zero => exact .zero
  | infinity => exact .infinity
  | finite hPos hOrder =>
      rw [Unpacked.overflowed]
      split
      · exact .infinity
      · exact .finite hPos hOrder

theorem isNaN_eq_false (h : IsNonnegative number) : number.isNaN = false := by
  cases h <;> rfl

theorem isNaN_sqrt (h : IsNonnegative number) :
    (UnpackedFloat.sqrt Format.binary64 number).isNaN = false := by
  cases h with
  | zero | infinity => rfl
  | finite => exact isNaN_roundWithAccuracy _ _ _ _

/-- There is a least positive number. -/
theorem eq_zero_or_atLeast (h : IsNonnegative number) :
    number = .zero .positive ∨ AtLeast (-1074) number := by
  cases h with
  | zero => exact .inl rfl
  | infinity => exact .inr trivial
  | finite hPos hOrder => exact .inr hOrder

theorem infinity_add (h : IsNonnegative number) :
    UnpackedFloat.add Format.binary64 (.infinity .positive) number = .infinity .positive := by
  cases h <;> rfl

theorem add_infinity (h : IsNonnegative number) :
    UnpackedFloat.add Format.binary64 number (.infinity .positive) = .infinity .positive := by
  cases h <;> rfl

theorem add (hu : IsNonnegative u) (hv : IsNonnegative v) :
    IsNonnegative (UnpackedFloat.add Format.binary64 u v) := by
  cases hu with
  | zero =>
      cases hv with
      | zero => exact .zero
      | infinity => exact .infinity
      | finite hPos' hOrder' => exact .finite hPos' hOrder'
  | infinity => rw [hv.infinity_add]; exact .infinity
  | finite hPos hOrder =>
      cases hv with
      | zero => exact .finite hPos hOrder
      | infinity => exact .infinity
      | finite hPos' => exact (add_rounds hPos hPos' _ _ .positive).isNonnegative

/-- **Sums of numbers that are not negative** are not below either of them. -/
theorem add_atLeast (hu : IsNonnegative u) (hv : IsNonnegative v) {order : Int}
    (h : AtLeast order u ∨ AtLeast order v) :
    AtLeast order (UnpackedFloat.add Format.binary64 u v) := by
  cases hu with
  | zero =>
      have hRight : AtLeast order v := h.resolve_left id
      cases hv with
      | zero | finite => exact hRight
      | infinity => trivial
  | infinity => rw [hv.infinity_add]; trivial
  | finite hPos hOrder =>
      cases hv with
      | zero => exact h.resolve_right id
      | infinity => trivial
      | finite hPos' hOrder' =>
          refine ((add_rounds hPos hPos' _ _ .positive).atLeast (by omega)).mono ?_
          rcases h with hLeft | hRight
          · exact Int.le_trans hLeft (by omega)
          · exact Int.le_trans hRight (by omega)

end IsNonnegative

/-! ### Upper bounds -/

namespace AtMost

variable {order : Int} {number : UnpackedFloat}

theorem mono (h : AtMost order number) {high : Int} (hHigh : order ≤ high) :
    AtMost high number := by
  rcases number with _ | _ | _ | _
  case finite => exact Int.le_trans h hHigh
  case zero => trivial
  all_goals exact h.elim

theorem neg (h : AtMost order number) : AtMost order number.neg := by
  cases number <;> exact h

theorem isFinite (h : AtMost order number) : number.isFinite = true := by
  rcases number with _ | _ | _ | _
  case finite | zero => rfl
  all_goals exact h.elim

/-- A number with a bound does not overflow. -/
theorem overflowed_eq (h : AtMost order number) (hOrder : order ≤ 971) :
    overflowed number = number := by
  rcases number with _ | _ | _ | ⟨_, mantissa, exponent, _⟩
  case finite =>
    have hLe : mantissa.log2 + exponent ≤ order := h
    exact if_neg (by omega)
  case zero => rfl
  all_goals exact h.elim

end AtMost

theorem Rounds.atMost {sign : Sign} {low high : Int} {number : UnpackedFloat}
    (h : Rounds sign low high number) (hHigh : -1075 ≤ high) : AtMost (high + 1) number := by
  cases h with
  | zero => trivial
  | finite _ _ _ hOrder =>
      change _ ≤ _
      omega

/-- **Quotients**: dividing a bounded number by one that is not much smaller. -/
theorem div_atMost {u v : UnpackedFloat} {order high : Int} (hu : AtMost order u)
    (hv : AtLeast (order - high) v) (hHigh : -1075 ≤ high) :
    AtMost (high + 1) (UnpackedFloat.div Format.binary64 u v) := by
  rcases u with _ | _ | s | ⟨s, m, e, hm⟩
  case infinity | notANumber => exact hu.elim
  all_goals rcases v with ⟨_ | _⟩ | _ | _ | ⟨_ | _, n, f, hn⟩
  case finite.finite.positive =>
    have hLess : m.log2 + e ≤ order := hu
    have hLess' : order - high ≤ n.log2 + f := hv
    exact ((div_rounds hm hn e f s .positive).mono (Int.le_refl _) (by omega)).atMost hHigh
  case zero.infinity.positive | zero.finite.positive | finite.infinity.positive => trivial
  all_goals exact hv.elim

/-- **Sums** of two bounded numbers, cancelling or not. -/
theorem add_atMost {u v : UnpackedFloat} {order : Int} (hu : AtMost order u)
    (hv : AtMost order v) (hOrder : -1076 ≤ order) :
    AtMost (order + 2) (UnpackedFloat.add Format.binary64 u v) := by
  rcases u with _ | _ | s | ⟨s, m, e, hm⟩
  case infinity | notANumber => exact hu.elim
  all_goals rcases v with _ | _ | t | ⟨t, n, f, hn⟩
  case zero.infinity | zero.notANumber | finite.infinity | finite.notANumber => exact hv.elim
  case zero.zero => cases s <;> cases t <;> trivial
  case zero.finite => exact hv.mono (by omega)
  case finite.zero => exact hu.mono (by omega)
  case finite.finite =>
    have hLess : m.log2 + e ≤ order := hu
    have hLess' : n.log2 + f ≤ order := hv
    rcases add_rounds_or_zero hm hn e f s t with hZero | ⟨_, _, hRounds⟩
    · rw [hZero]
      trivial
    · have hHigh : max (m.log2 + e) (n.log2 + f) + 1 ≤ order + 1 := by omega
      exact ((hRounds.mono (Int.le_refl _) hHigh).atMost (by omega)).mono (by omega)

end EquivalentCircuit.Unpacked
