import EquivalentCircuit.Arithmetic.Real
import EquivalentCircuit.Proofs.Numbering
import EquivalentCircuit.Proofs.Sentences
import Mathlib.Tactic.Ring

/-!
# Impedance Scaling

A network keeps its shape when all its impedances are multiplied by one number. In exact arithmetic
every element law says how the value of the element has to change for that: a capacitor is the
only element whose impedance falls as its value rises, so its value is divided by the number, and
every other value is multiplied by it.

The limits of the parallel rule ask whether an immittance is exactly zero or infinite, and scaling
changes neither, nor does it change whether two admittances cancel. Of the elementary functions
nothing is used.

## Main results

* `ElementKind.impedance_scaledValue`: the element laws.
* `Connection.combine_scale`: connections commute with scaling.
* `Circuit.Reached.evaluateWith_of_isScaled`: scaling a circuit scales its impedance.
-/

universe u

namespace EquivalentCircuit

variable {K : Type u} [Field K] {k : K}

/-! ### Complex numbers -/

namespace Complex

/-- A complex number **multiplied** by a number. -/
def scale (k : K) (z : Complex K) : Complex K :=
  ⟨k * z.re, k * z.im⟩

@[simp] theorem scale_zero (k : K) : scale k 0 = 0 :=
  Complex.ext (mul_zero k) (mul_zero k)

theorem scale_add (k : K) (z w : Complex K) : scale k (z + w) = scale k z + scale k w :=
  Complex.ext (mul_add k z.re w.re) (mul_add k z.im w.im)

theorem normSq_scale (k : K) (z : Complex K) : (scale k z).normSq = k * k * z.normSq := by
  simp only [scale, normSq]
  ring

/-- The reciprocal of a multiple is the multiple of the reciprocal by the reciprocal number. -/
theorem inv_scale (hk : k ≠ 0) (z : Complex K) : (scale k z).inv = scale k⁻¹ z.inv := by
  have hPart : ∀ x : K, k * x / (k * k * z.normSq) = k⁻¹ * (x / z.normSq) := by
    intro x
    rw [mul_assoc, mul_div_mul_left _ _ hk]
    ring
  apply Complex.ext
  · change k * z.re / (scale k z).normSq = k⁻¹ * (z.re / z.normSq)
    rw [normSq_scale, hPart]
  · change -(k * z.im) / (scale k z).normSq = k⁻¹ * (-z.im / z.normSq)
    rw [normSq_scale, ← mul_neg, hPart]

variable [DecidableEq K]

/-- A multiple is zero only where the number is. -/
theorem isZero_scale (hk : k ≠ 0) (z : Complex K) : (scale k z).isZero = z.isZero := by
  have hPart : ∀ x : K, (k * x == 0) = (x == 0) := by
    intro x
    rw [Bool.eq_iff_iff, beq_iff_eq, beq_iff_eq, mul_eq_zero_iff_left hk]
  rw [isZero, isZero, scale, hPart, hPart]

end Complex

/-! ### Immittances -/

/-- An immittance **multiplied** by a number. An open circuit stays one. -/
def Extended.scale (k : K) : Extended K → Extended K
  | .finite z => .finite (z.scale k)
  | .infinite => .infinite

namespace Extended

theorem scale_add (k : K) (z w : Extended K) :
    scale k (add z w) = add (scale k z) (scale k w) := by
  cases z with
  | infinite => rfl
  | finite z =>
      cases w with
      | infinite => rfl
      | finite w => exact congrArg finite (Complex.scale_add k z w)

variable [DecidableEq K]

theorem isShort_scale (hk : k ≠ 0) (z : Extended K) :
    Immittance.isShort (scale k z) = Immittance.isShort z := by
  cases z with
  | infinite => rfl
  | finite z => exact Complex.isZero_scale hk z

theorem isOpen_scale (k : K) (z : Extended K) :
    Immittance.isOpen (scale k z) = Immittance.isOpen z := by
  cases z <;> rfl

/-- The admittance of a scaled impedance. -/
theorem inv_scale (hk : k ≠ 0) (z : Extended K) :
    Immittance.inv (scale k z) = scale k⁻¹ (Immittance.inv z) := by
  cases z with
  | infinite => exact congrArg finite (Complex.scale_zero k⁻¹).symm
  | finite z => exact congrArg finite (Complex.inv_scale hk z)

end Extended

section Laws

variable [DecidableEq K]

/-- **Connections commute with scaling.** -/
theorem Connection.combine_scale (hk : k ≠ 0) (connection : Connection) (z w : Extended K) :
    connection.combine (z.scale k) (w.scale k) = (connection.combine z w).scale k := by
  cases connection with
  | series => exact (Extended.scale_add k z w).symm
  | parallel =>
      have hAdmittance : Immittance.add (Immittance.inv (z.scale k)) (Immittance.inv (w.scale k)) =
          (Immittance.add (Immittance.inv z) (Immittance.inv w)).scale k⁻¹ := by
        rw [Extended.inv_scale hk, Extended.inv_scale hk]
        exact (Extended.scale_add k⁻¹ _ _).symm
      simp only [combine, combineParallel, Extended.isShort_scale hk, Extended.isOpen_scale,
        hAdmittance, Extended.isShort_scale (inv_ne_zero hk), Extended.inv_scale (inv_ne_zero hk),
        inv_inv]
      split_ifs
      · exact congrArg Extended.finite (Complex.scale_zero k).symm
      · rfl
      · rfl
      · rfl
      · rfl

/-! ### Elements -/

namespace ElementKind

/-- The value that an element needs for **its impedance to be multiplied** by a number. -/
def scaledValue (k : K) (kind : ElementKind) (value : K) : K :=
  match kind with
  | .resistor | .inductor | .constantPhase | .warburg => k * value
  | .capacitor => value / k

variable [Elementary K]

/-- With the value scaled an element has the scaled impedance, whatever the elementary functions
are. -/
theorem impedance_scaledValue (hk : k ≠ 0) (kind : ElementKind) (omega value exponent : K) :
    (kind.impedance omega (kind.scaledValue k value) exponent : Extended K) =
      Extended.scale k (kind.impedance omega value exponent) := by
  cases kind with
  | resistor => exact congrArg Extended.finite (Complex.ext rfl (mul_zero k).symm)
  | capacitor =>
      have hZero : (omega * (value / k) == 0) = (omega * value == 0) := by
        rw [Bool.eq_iff_iff, beq_iff_eq, beq_iff_eq, ← mul_div_assoc, div_eq_zero_iff]
        simp [hk]
      simp only [impedance, scaledValue, hZero]
      split_ifs
      · rfl
      · refine congrArg Extended.finite (Complex.ext (mul_zero k).symm ?_)
        change -1 / (omega * (value / k)) = k * (-1 / (omega * value))
        rw [← mul_div_assoc, div_div_eq_mul_div]
        ring
  | inductor =>
      refine congrArg Extended.finite (Complex.ext (mul_zero k).symm ?_)
      change omega * (k * value) = k * (omega * value)
      ring
  | constantPhase =>
      simp only [impedance, scaledValue]
      split_ifs
      · rfl
      · refine congrArg Extended.finite ?_
        rw [Complex.div_eq, Complex.div_eq, Complex.scale, Complex.mk.injEq]
        constructor <;> ring
  | warburg =>
      simp only [impedance, scaledValue]
      split_ifs
      · rfl
      · refine congrArg Extended.finite (Complex.ext ?_ ?_)
        · change k * value / Elementary.sqrt omega = k * (value / Elementary.sqrt omega)
          ring
        · change -(k * value / Elementary.sqrt omega) = k * -(value / Elementary.sqrt omega)
          ring

end ElementKind

end Laws

/-! ### Circuits -/

namespace Circuit

/-- The **kind of a literal**: that of the first operand that has it. -/
def kindOf? {α : Type u} (circuit : Circuit α) (literal : String) : Option ElementKind :=
  (circuit.items.operands.find? fun operand => operand.literal == literal).bind Operand.kind

/-- In a circuit whose literals are distinct the kind of a literal is that of its operand. -/
theorem kindOf?_literal {α : Type u} {circuit : Circuit α}
    (hNodup : circuit.items.literals.Nodup) {operand : Operand}
    (hMem : operand ∈ circuit.items.operands) :
    circuit.kindOf? operand.literal = operand.kind := by
  rcases hFound : circuit.items.operands.find? fun other => other.literal == operand.literal with
    - | found
  · exact absurd (List.find?_eq_none.mp hFound operand hMem) (by simp)
  · have hLiteral : found.literal = operand.literal := by simpa using List.find?_some hFound
    obtain rfl : found = operand :=
      List.inj_on_of_nodup_map hNodup (List.mem_of_find?_eq_some hFound) hMem hLiteral
    rw [kindOf?, hFound]
    rfl

/-- A circuit is **scaled** to another one when every component with an impedance law has there the
value that multiplies its impedance. -/
def IsScaled (k : K) (circuit scaled : Circuit K) : Prop :=
  ∀ operand ∈ circuit.items.operands, ∀ kind, operand.kind = some kind →
    scaled.value? operand.literal =
      (circuit.value? operand.literal).map (kind.scaledValue k)

/-- The **values of the scaled circuit** by literal. A component without an impedance law keeps its
value. -/
def scaledValueOf (k : K) (circuit : Circuit K) (literal : String) : K :=
  match circuit.kindOf? literal with
  | some kind => kind.scaledValue k (circuit.valueOr 0 literal)
  | none => circuit.valueOr 0 literal

variable {precedence : Precedence} {source : String}

/-- Circuits that are reached from one source have the same items and the same literals. -/
theorem Reached.items_and_literals_eq {α : Type u} [One α] {circuit other : Circuit α}
    (h : Reached precedence source circuit) (hOther : Reached precedence source other) :
    other.items = circuit.items ∧ other.literals = circuit.literals := by
  have hItems : other.items = circuit.items :=
    Except.ok.inj (hOther.parse_eq.symm.trans h.parse_eq)
  exact ⟨hItems, by rw [hOther.literals_eq, h.literals_eq, hItems]⟩

/-- Every circuit **can be scaled**. -/
theorem Reached.exists_isScaled {circuit : Circuit K} (h : Reached precedence source circuit)
    (k : K) :
    ∃ scaled : Circuit K, Reached precedence source scaled ∧ circuit.IsScaled k scaled := by
  obtain ⟨scaled, hScaled, hHolds⟩ := exists_reached_holds h (circuit.scaledValueOf k)
  refine ⟨scaled, hScaled, fun operand hMem kind hKind => ?_⟩
  have hLiteral : operand.literal ∈ circuit.literals :=
    h.mem_literals_iff.mpr (List.mem_map_of_mem hMem)
  have hScaledLiteral : operand.literal ∈ scaled.literals :=
    (h.items_and_literals_eq hScaled).2 ▸ hLiteral
  rw [hHolds _ hScaledLiteral, circuit.holds_valueOr 0 _ hLiteral, scaledValueOf,
    kindOf?_literal h.nodup_items_literals hMem, hKind]
  rfl

variable [DecidableEq K] [Elementary K]

/-- **Interpreting a scaled circuit** on scaled impedances gives the scaled impedance, or the same
error. -/
theorem IsScaled.interpret_map_scale {circuit scaled : Circuit K} (h : circuit.IsScaled k scaled)
    (hk : k ≠ 0) (exponents : Exponents K) (omega : K) {items : Postfix}
    (hItems : ∀ operand ∈ items.operands, operand ∈ circuit.items.operands)
    (stack : List (Extended K)) :
    scaled.interpret exponents omega (stack.map (Extended.scale k)) items =
      (circuit.interpret exponents omega stack items).map (Extended.scale k) := by
  induction items generalizing stack with
  | nil =>
      match stack with
      | [] | [_] | _ :: _ :: _ => simp [interpret, Except.map]
  | cons item rest ih =>
      cases item with
      | operand operand =>
          obtain ⟨hOperand, hRest⟩ := List.forall_mem_cons.mp hItems
          rcases hKind : operand.kind with - | kind
          · rw [interpret_unsupported hKind, interpret_unsupported hKind]
            rfl
          · have hScaled := h operand hOperand kind hKind
            rcases hValue : circuit.value? operand.literal with - | value
            · rw [hValue, Option.map_none] at hScaled
              rw [interpret, interpret, lookup_components, lookup_components, hScaled, hValue,
                hKind]
              rfl
            · rw [hValue, Option.map_some] at hScaled
              rw [interpret_operand hKind hScaled, interpret_operand hKind hValue,
                ElementKind.impedance_scaledValue hk, ← List.map_cons, ih hRest]
      | operator op =>
          match stack with
          | [] | [_] => rfl
          | right :: left :: below =>
              rw [List.map_cons, List.map_cons, interpret, interpret,
                Connection.combine_scale hk, ← List.map_cons, ih hItems]

variable [LT K] [DecidableLT K]

/-- **Impedance scaling.** Every circuit of any source can be scaled by any number other than zero:
the values of resistors, inductors, constant-phase and Warburg elements are multiplied by it and
the values of capacitors are divided by it. The scaled circuit has the scaled impedance, with any
exponents and at any frequency: an open circuit stays open and a short circuit stays short. Where
the one circuit reports an error the other one reports the same. -/
theorem Reached.evaluateWith_of_isScaled {circuit : Circuit K}
    (h : Reached precedence source circuit) (hk : k ≠ 0) :
    (∃ scaled : Circuit K, Reached precedence source scaled ∧ circuit.IsScaled k scaled) ∧
      ∀ scaled : Circuit K, Reached precedence source scaled → circuit.IsScaled k scaled →
        ∀ (exponents : Exponents K) (frequency : K),
          scaled.evaluateWith (ζ := Extended K) exponents frequency =
            (circuit.evaluateWith exponents frequency).map (Extended.scale k) := by
  refine ⟨h.exists_isScaled k, fun scaled hReached hScaled exponents frequency => ?_⟩
  obtain ⟨hItems, hLiterals⟩ := h.items_and_literals_eq hReached
  have hInterpret := hScaled.interpret_map_scale hk exponents (Frequency.angular frequency)
    (fun _ hMem => hMem) []
  rw [hReached.evaluateWith_eq_interpretWith, h.evaluateWith_eq_interpretWith, interpretWith,
    interpretWith, hLiterals, hItems]
  cases exponents.unknown? circuit.literals with
  | some key => rfl
  | none =>
      dsimp only
      split_ifs
      · exact hInterpret
      · rfl

/-- A resistor of 3 ohms behind a capacitor of 4 farads, scaled by two. -/
theorem evaluateWith_of_doubled_impedance :
    ∃ circuit scaled : Circuit ℝ, Reached .uniform "C - R" circuit ∧
      Reached .uniform "C - R" scaled ∧ circuit.components = [("C1", 4), ("R1", 3)] ∧
      scaled.components = [("C1", 2), ("R1", 6)] ∧ (2 : ℝ) ≠ 0 ∧ circuit.IsScaled 2 scaled ∧
      ∀ frequency, scaled.evaluateWith (ζ := Extended ℝ) [("R1", 0)] frequency =
        (circuit.evaluateWith [("R1", 0)] frequency).map (Extended.scale 2) := by
  have hBuilt : Reached .uniform "C - R" (ofPostfix (α := ℝ) "C - R"
      [.operand (.ofComponent "C1" ⟨"C", 0⟩), .operand (.ofComponent "R1" ⟨"R", 4⟩),
        .operator ⟨.series, ⟨"-", 2⟩⟩]) := .built rfl
  have hReached := hBuilt.setAll [("C1", 4), ("R1", 3)]
  have hReached' := hBuilt.setAll [("C1", 2), ("R1", 6)]
  have hEvaluate := (hReached.evaluateWith_of_isScaled (two_ne_zero (α := ℝ))).2 _ hReached'
  refine ⟨_, _, hReached, hReached', rfl, rfl, two_ne_zero, ?_⟩
  suffices hScaled : IsScaled (2 : ℝ) _ _ from ⟨hScaled, hEvaluate hScaled [("R1", 0)]⟩
  have hCapacitance : (2 : ℝ) = 4 / 2 := by norm_num
  have hResistance : (6 : ℝ) = 2 * 3 := by norm_num
  intro operand hMem kind hKind
  rcases List.mem_pair.mp hMem with rfl | rfl
  · obtain rfl : ElementKind.capacitor = kind := Option.some.inj hKind
    exact congrArg some hCapacitance
  · obtain rfl : ElementKind.resistor = kind := Option.some.inj hKind
    exact congrArg some hResistance

end Circuit

end EquivalentCircuit
