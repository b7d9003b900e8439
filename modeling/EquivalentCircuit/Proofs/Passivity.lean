import EquivalentCircuit.Arithmetic.Real
import EquivalentCircuit.Proofs.Reciprocal
import EquivalentCircuit.Proofs.Sentences

/-!
# Passivity

A network of elements with non-negative values takes up energy and never gives any: in exact
arithmetic its impedance is open or has a non-negative real part. Without inductors its
imaginary part is not positive, and with resistors and inductors only it is not negative.

All three are statements about a half-plane through zero. Sums stay in a half-plane, and the
reciprocal takes it to its mirror image, so that connections stay in it
(`Extended.InHalfPlane.combine`). The impedance of an element is a non-negative multiple of a fixed
direction, and it is enough to know which directions lie in the half-plane.

## Main results

* `Extended.InHalfPlane.combine`: connections stay in a half-plane.
* `ElementKind.inHalfPlane_impedance`: where the impedances of elements lie.
* `Circuit.evaluate_passive`: passivity of circuits.
-/

universe u

namespace EquivalentCircuit

variable {K : Type u} [Field K] [LinearOrder K]

/-! ### Half-planes -/

/-- Whether an immittance is infinite or lies in the **half-plane** through zero towards the
direction `(a, b)`. -/
def Extended.InHalfPlane (a b : K) (z : Extended K) : Prop :=
  ∀ w, z = .finite w → 0 ≤ a * w.re + b * w.im

namespace Extended

theorem inHalfPlane_infinite (a b : K) : InHalfPlane a b .infinite :=
  fun _ h => absurd h (by simp)

theorem inHalfPlane_finite_iff {a b : K} {w : Complex K} :
    InHalfPlane a b (.finite w) ↔ 0 ≤ a * w.re + b * w.im :=
  ⟨fun h => h w rfl, fun h _ hEq => finite.inj hEq ▸ h⟩

variable [IsStrictOrderedRing K]

/-- A sum stays in a half-plane. -/
theorem InHalfPlane.add {a b : K} {z w : Extended K} (hz : InHalfPlane a b z)
    (hw : InHalfPlane a b w) : InHalfPlane a b (z.add w) := by
  cases z with
  | infinite => exact inHalfPlane_infinite a b
  | finite z =>
      cases w with
      | infinite => exact inHalfPlane_infinite a b
      | finite w =>
          rw [inHalfPlane_finite_iff] at hz hw
          rw [finite_add_finite, inHalfPlane_finite_iff]
          calc 0 ≤ (a * z.re + b * z.im) + (a * w.re + b * w.im) := add_nonneg hz hw
            _ = a * (z + w).re + b * (z + w).im := by
              rw [Complex.add_re, Complex.add_im]
              ring

/-- A reciprocal lies in the half-plane mirrored at the real axis. -/
theorem InHalfPlane.reciprocal {a b : K} {z : Extended K} (h : InHalfPlane a b z) :
    InHalfPlane a (-b) z.reciprocal := by
  cases z with
  | infinite =>
      rw [reciprocal_infinite, inHalfPlane_finite_iff]
      simp
  | finite z =>
      by_cases hZero : z = 0
      · rw [hZero, reciprocal_zero]
        exact inHalfPlane_infinite a (-b)
      · rw [inHalfPlane_finite_iff] at h
        rw [reciprocal_finite hZero, inHalfPlane_finite_iff]
        calc 0 ≤ (a * z.re + b * z.im) / z.normSq := div_nonneg h z.normSq_nonneg
          _ = a * z.inv.re + -b * z.inv.im := by
            simp only [Complex.inv]
            ring

/-- **Connections stay in a half-plane.** -/
theorem InHalfPlane.combine {a b : K} (connection : Connection) {z w : Extended K}
    (hz : InHalfPlane a b z) (hw : InHalfPlane a b w) :
    InHalfPlane a b (connection.combine z w) := by
  cases connection with
  | series => exact hz.add hw
  | parallel =>
      rw [combine_parallel]
      have hSum := (hz.reciprocal.add hw.reciprocal).reciprocal
      rwa [neg_neg] at hSum

end Extended

/-! ### Elements -/

namespace ElementKind

/-- The **direction** in which the impedances of a kind lie when the value is not negative. That of
a constant-phase element depends on its exponent. -/
def direction (kind : ElementKind) : Option (Complex K) :=
  match kind with
  | .resistor => some ⟨1, 0⟩
  | .capacitor => some ⟨0, -1⟩
  | .inductor => some ⟨0, 1⟩
  | .warburg => some ⟨1, -1⟩
  | .constantPhase => none

variable [IsStrictOrderedRing K] [Elementary K]

omit [Elementary K] in
/-- Directions point to the right; only inductors point upwards, and capacitors and Warburg elements
point downwards. -/
theorem direction_signs {kind : ElementKind} {towards : Complex K}
    (h : kind.direction = some towards) :
    0 ≤ towards.re ∧ (kind ≠ .inductor → towards.im ≤ 0) ∧
      (kind = .resistor ∨ kind = .inductor → 0 ≤ towards.im) := by
  cases kind with
  | resistor =>
      obtain rfl := Option.some.inj h
      exact ⟨zero_le_one, fun _ => le_rfl, fun _ => le_rfl⟩
  | capacitor =>
      obtain rfl := Option.some.inj h
      exact ⟨le_rfl, fun _ => neg_nonpos.mpr zero_le_one, by simp⟩
  | inductor =>
      obtain rfl := Option.some.inj h
      exact ⟨le_rfl, fun hNe => absurd rfl hNe, fun _ => zero_le_one⟩
  | warburg =>
      obtain rfl := Option.some.inj h
      exact ⟨zero_le_one, fun _ => neg_nonpos.mpr zero_le_one, by simp⟩
  | constantPhase => exact absurd h (by simp [direction])

omit [LinearOrder K] [IsStrictOrderedRing K] [Elementary K] in
/-- The kinds that have a direction. -/
theorem exists_direction {kind : Option ElementKind}
    (h : kind ∈ [some .resistor, some .capacitor, some .inductor, some .warburg]) :
    ∃ known, kind = some known ∧ ∃ towards : Complex K, known.direction = some towards := by
  simp only [List.mem_cons, List.not_mem_nil, or_false] at h
  rcases h with rfl | rfl | rfl | rfl
  · exact ⟨.resistor, rfl, _, rfl⟩
  · exact ⟨.capacitor, rfl, _, rfl⟩
  · exact ⟨.inductor, rfl, _, rfl⟩
  · exact ⟨.warburg, rfl, _, rfl⟩

/-- An element with a non-negative value is open, or its impedance is a **non-negative multiple of
the direction** of its kind. -/
theorem impedance_eq_infinite_or_multiple (hSqrtZero : Elementary.sqrt (0 : K) = 0)
    (hSqrtPos : ∀ x : K, 0 < x → 0 < Elementary.sqrt x) {kind : ElementKind}
    {towards : Complex K} (hDirection : kind.direction = some towards) {omega value : K}
    (hOmega : 0 ≤ omega) (hValue : 0 ≤ value) (exponent : K) :
    (kind.impedance omega value exponent : Extended K) = .infinite ∨
      ∃ t, 0 ≤ t ∧ (kind.impedance omega value exponent : Extended K) =
        .finite ⟨t * towards.re, t * towards.im⟩ := by
  cases kind with
  | resistor =>
      obtain rfl := Option.some.inj hDirection
      exact .inr ⟨value, hValue,
        congrArg Extended.finite (Complex.ext (mul_one value).symm (mul_zero value).symm)⟩
  | capacitor =>
      obtain rfl := Option.some.inj hDirection
      rw [impedance]
      by_cases hOpen : omega * value = 0
      · exact .inl (if_pos (beq_iff_eq.mpr hOpen))
      · refine .inr ⟨1 / (omega * value), one_div_nonneg.mpr (mul_nonneg hOmega hValue), ?_⟩
        rw [if_neg (mt beq_iff_eq.mp hOpen)]
        refine congrArg Extended.finite (Complex.ext (mul_zero _).symm ?_)
        change -1 / (omega * value) = 1 / (omega * value) * -1
        ring
  | inductor =>
      obtain rfl := Option.some.inj hDirection
      exact .inr ⟨omega * value, mul_nonneg hOmega hValue,
        congrArg Extended.finite (Complex.ext (mul_zero _).symm (mul_one _).symm)⟩
  | warburg =>
      obtain rfl := Option.some.inj hDirection
      rw [impedance]
      rcases hOmega.eq_or_lt with rfl | hPos
      · exact .inl (if_pos (beq_iff_eq.mpr hSqrtZero))
      · have hRoot := hSqrtPos omega hPos
        refine .inr ⟨value / Elementary.sqrt omega, div_nonneg hValue hRoot.le, ?_⟩
        rw [if_neg (mt beq_iff_eq.mp hRoot.ne')]
        refine congrArg Extended.finite (Complex.ext (mul_one _).symm ?_)
        change -(value / Elementary.sqrt omega) = value / Elementary.sqrt omega * -1
        ring
  | constantPhase => exact absurd hDirection (by simp [direction])

/-- An element with a non-negative value has an impedance in every half-plane in which the direction
of its kind lies. -/
theorem inHalfPlane_impedance (hSqrtZero : Elementary.sqrt (0 : K) = 0)
    (hSqrtPos : ∀ x : K, 0 < x → 0 < Elementary.sqrt x) {a b : K} {kind : ElementKind}
    {towards : Complex K} (hDirection : kind.direction = some towards)
    (hTowards : 0 ≤ a * towards.re + b * towards.im) {omega value : K} (hOmega : 0 ≤ omega)
    (hValue : 0 ≤ value) (exponent : K) :
    (kind.impedance omega value exponent : Extended K).InHalfPlane a b := by
  rcases impedance_eq_infinite_or_multiple hSqrtZero hSqrtPos hDirection hOmega hValue exponent
    with hOpen | ⟨t, hT, hMultiple⟩
  · rw [hOpen]
    exact Extended.inHalfPlane_infinite a b
  · rw [hMultiple, Extended.inHalfPlane_finite_iff]
    calc 0 ≤ t * (a * towards.re + b * towards.im) := mul_nonneg hT hTowards
      _ = a * (t * towards.re) + b * (t * towards.im) := by ring

end ElementKind

/-! ### Circuits -/

namespace Circuit

variable [IsStrictOrderedRing K] [Elementary K]

/-- The value of a tree lies in a half-plane when the directions of its operands do. -/
theorem inHalfPlane_value (hSqrtZero : Elementary.sqrt (0 : K) = 0)
    (hSqrtPos : ∀ x : K, 0 < x → 0 < Elementary.sqrt x) {a b : K} {tree : Expr}
    {assignment : String → K} {omega : K} (hOmega : 0 ≤ omega)
    (hOperands : ∀ operand ∈ tree.postorder.operands, 0 ≤ assignment operand.literal ∧
      ∃ kind towards, operand.kind = some kind ∧ kind.direction = some towards ∧
        0 ≤ a * towards.re + b * towards.im) (exponents : Exponents K) :
    (tree.value (operandImpedance exponents omega assignment) : Extended K).InHalfPlane a b := by
  refine Expr.value_of_forall_operands
    (fun connection _ _ hLeft hRight => hLeft.combine connection hRight) fun operand hMem => ?_
  obtain ⟨hValue, kind, towards, hKind, hDirection, hTowards⟩ := hOperands operand hMem
  rw [operandImpedance, hKind]
  exact ElementKind.inHalfPlane_impedance hSqrtZero hSqrtPos hDirection hTowards hOmega hValue _

/-- **Passivity.** A well-formed source of resistors, capacitors, inductors and Warburg elements
with non-negative values has, at every frequency from zero on, an impedance that is open or has a
non-negative real part. If there is no inductor the imaginary part is not positive, and if there
are resistors and inductors only it is not negative. Of the square root it is only used that it
is zero at zero and positive at positive numbers. -/
theorem evaluate_passive (hTau : (0 : K) < Elementary.tau)
    (hSqrtZero : Elementary.sqrt (0 : K) = 0)
    (hSqrtPos : ∀ x : K, 0 < x → 0 < Elementary.sqrt x) {precedence : Precedence}
    {source : String} {chain : Chain} (hSpelled : chain.SpelledBy source)
    (hKinds : ∀ operand ∈ chain.operands,
      operand.kind ∈ [some .resistor, some .capacitor, some .inductor, some .warburg])
    {circuit : Circuit K} (hReached : Reached precedence source circuit)
    (hValues : ∀ component ∈ circuit.components, 0 ≤ component.2) {frequency : K}
    (hFinite : Elementary.isFinite frequency = true) (hFrequency : 0 ≤ frequency) :
    ∃ impedance : Extended K, circuit.evaluate frequency = .ok impedance ∧
      ∀ z, impedance = .finite z →
        0 ≤ z.re ∧
        ((∀ operand ∈ chain.operands, operand.kind ≠ some .inductor) → z.im ≤ 0) ∧
        ((∀ operand ∈ chain.operands, operand.kind ∈ [some .resistor, some .inductor]) →
          0 ≤ z.im) := by
  have hSome : ∀ operand ∈ chain.operands, operand.kind.isSome = true := by
    intro operand hMem
    obtain ⟨kind, hKind, -⟩ := ElementKind.exists_direction (K := K) (hKinds operand hMem)
    rw [hKind]
    rfl
  have hAdmissible : Frequency.admissible frequency = true := by
    rw [Frequency.admissible, hFinite, decide_eq_false (not_lt.mpr hFrequency)]
    rfl
  have hOmega : 0 ≤ Frequency.angular frequency := mul_nonneg hTau.le hFrequency
  -- The value lies in every half-plane that the directions of the operands lie in.
  have hPlane : ∀ a b : K, (∀ operand ∈ chain.operands, ∀ kind towards,
      operand.kind = some kind → kind.direction = some towards →
        0 ≤ a * towards.re + b * towards.im) →
      ((chain.tree precedence).value (operandImpedance [] (Frequency.angular frequency)
        (circuit.valueOr 0)) : Extended K).InHalfPlane a b := by
    intro a b hTowards
    refine inHalfPlane_value hSqrtZero hSqrtPos hOmega ?_ []
    rw [chain.operands_postorder_tree]
    intro operand hMem
    obtain ⟨kind, hKind, towards, hDirection⟩ :=
      ElementKind.exists_direction (K := K) (hKinds operand hMem)
    have hLiteral := hReached.mem_literals_of_mem_operands hSpelled hMem
    exact ⟨valueOr_of_forall_components 0 hValues hLiteral, kind, towards, hKind, hDirection,
      hTowards operand hMem kind towards hKind hDirection⟩
  refine ⟨_, hReached.evaluate_eq_ok_value hSpelled hSome (circuit.holds_valueOr 0) hAdmissible,
    fun z hZ => ⟨?_, ?_, ?_⟩⟩
  · have hRight := hPlane 1 0 fun _ _ kind towards _ hDirection => by
      simpa using (ElementKind.direction_signs hDirection).1
    simpa using hRight z hZ
  · intro hNone
    have hDown := hPlane 0 (-1) fun operand hMem kind towards hKind hDirection => by
      have hNe : kind ≠ .inductor := fun hEq => hNone operand hMem (hKind.trans (congrArg some hEq))
      simpa using (ElementKind.direction_signs hDirection).2.1 hNe
    simpa using hDown z hZ
  · intro hOnly
    have hUp := hPlane 0 1 fun operand hMem kind towards hKind hDirection => by
      have hEq : kind = .resistor ∨ kind = .inductor := by
        simpa [hKind] using hOnly operand hMem
      simpa using (ElementKind.direction_signs hDirection).2.2 hEq
    simpa using hUp z hZ

/-- A capacitor beside a Warburg element, behind a resistor, at one hertz. -/
theorem evaluate_passive_randles :
    ∃ circuit : Circuit ℝ, Reached .uniform "R - (C | W)" circuit ∧
      circuit.components = [("R1", 20), ("C1", 0), ("W1", 1)] ∧
      ∃ impedance : Extended ℝ, circuit.evaluate 1 = .ok impedance ∧
        ∀ z, impedance = .finite z → 0 ≤ z.re ∧ z.im ≤ 0 := by
  have hSpelled : (Chain.link (.component "R1" ⟨"R", 0⟩) ⟨.series, ⟨"-", 2⟩⟩
      (.last (.group ⟨"(", 4⟩ (.link (.component "C1" ⟨"C", 5⟩) ⟨.parallel, ⟨"|", 7⟩⟩
        (.last (.component "W1" ⟨"W", 9⟩))) ⟨")", 10⟩))).SpelledBy "R - (C | W)" :=
    ⟨⟨"", 11⟩, rfl⟩
  have hBuilt : Reached .uniform "R - (C | W)" (ofPostfix (α := ℝ) "R - (C | W)" _) :=
    .built (ofSource_eq_ok_iff.mpr ⟨_, hSpelled.parse_eq .uniform, rfl⟩)
  have hReached := hBuilt.setAll [("R1", 20), ("C1", 0)]
  have hTau : (0 : ℝ) < Elementary.tau := mul_pos two_pos Real.pi_pos
  have hSqrtPos : ∀ x : ℝ, 0 < x → 0 < Elementary.sqrt x := fun _ h => Real.sqrt_pos.mpr h
  have hComponents : ∀ component ∈ [("R1", (20 : ℝ)), ("C1", 0), ("W1", 1)], 0 ≤ component.2 := by
    simp
  obtain ⟨impedance, hOk, hSigns⟩ := evaluate_passive hTau Real.sqrt_zero hSqrtPos hSpelled
    (by decide) hReached hComponents rfl (zero_le_one (α := ℝ))
  refine ⟨_, hReached, rfl, impedance, hOk, fun z hZ => ?_⟩
  obtain ⟨hRight, hDown, -⟩ := hSigns z hZ
  exact ⟨hRight, hDown (by decide)⟩

end Circuit

end EquivalentCircuit
