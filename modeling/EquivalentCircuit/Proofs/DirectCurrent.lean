import EquivalentCircuit.Proofs.Rearrangement

/-!
# Direct Current

At frequency zero every element law is at its limit. Capacitors, constant-phase and Warburg elements
let no current through, inductors are wires, and resistors are what they are. What a circuit of
such elements does is decided by its **paths** from one terminal to the other: it is open when every
path is blocked, and a wire when some path has inductors only. Otherwise it is a resistor, namely
the one that the network of its conducting parts amounts to.

All impedances at direct current are infinite or real and not negative, so that no two branches
ever cancel. The value of a tree is followed through its conducting network
(`Expr.value_eq_ofResistance`), and the network through the paths of the tree
(`Expr.conducting?_eq_none_iff`, `Expr.isWire_conducting?_iff`).

## Main results

* `Expr.value_eq_ofResistance`: the value of a tree at direct current.
* `Circuit.evaluateWith_at_direct_current`: when a circuit is open, a wire or a resistor.
-/

universe u v

namespace EquivalentCircuit

/-! ### Paths -/

namespace Expr

/-- The **paths** of a tree from one terminal to the other, each as the operands on it. A path runs
through both parts of a series connection and through one part of a parallel connection. -/
def paths : Expr → List (List Operand)
  | .leaf component => [[component]]
  | .node op left right =>
    match op.connection with
    | .series => left.paths.flatMap fun front => right.paths.map (front ++ ·)
    | .parallel => left.paths ++ right.paths

/-- Whether some path **has only operands** of a given sort. -/
def HasPathOf (P : Operand → Prop) (tree : Expr) : Prop :=
  ∃ path ∈ tree.paths, ∀ operand ∈ path, P operand

variable {P : Operand → Prop}

theorem hasPathOf_leaf {component : Operand} : HasPathOf P (.leaf component) ↔ P component := by
  simp [HasPathOf, paths]

/-- A series connection has a path when both parts have one. -/
theorem hasPathOf_series {op : Operator} (hOp : op.connection = .series) {left right : Expr} :
    HasPathOf P (.node op left right) ↔ left.HasPathOf P ∧ right.HasPathOf P := by
  rw [HasPathOf, paths, hOp]
  constructor
  · rintro ⟨path, hPath, hAll⟩
    obtain ⟨front, hFront, hPath⟩ := List.mem_flatMap.mp hPath
    obtain ⟨back, hBack, rfl⟩ := List.mem_map.mp hPath
    rw [List.forall_mem_append] at hAll
    exact ⟨⟨front, hFront, hAll.1⟩, ⟨back, hBack, hAll.2⟩⟩
  · rintro ⟨⟨front, hFront, hAll⟩, ⟨back, hBack, hAll'⟩⟩
    exact ⟨front ++ back, List.mem_flatMap.mpr ⟨front, hFront, List.mem_map_of_mem hBack⟩,
      List.forall_mem_append.mpr ⟨hAll, hAll'⟩⟩

/-- A parallel connection has a path when one of its parts has one. -/
theorem hasPathOf_parallel {op : Operator} (hOp : op.connection = .parallel) {left right : Expr} :
    HasPathOf P (.node op left right) ↔ left.HasPathOf P ∨ right.HasPathOf P := by
  rw [HasPathOf, paths, hOp]
  simp only [List.mem_append, or_and_right, exists_or]
  rfl

end Expr

/-! ### The conducting network -/

namespace Network

/-- The **connection of what is left** of two networks. Of a series connection with a part removed
nothing is left, and of a parallel connection the other part. -/
def joinRemaining {π : Type v} (connection : Connection) :
    Option (Network π) → Option (Network π) → Option (Network π)
  | some left, some right => some (.joined connection left right)
  | some remaining, none | none, some remaining =>
    match connection with
    | .series => none
    | .parallel => some remaining
  | none, none => none

theorem joinRemaining_series_eq_none_iff {π : Type v} {left right : Option (Network π)} :
    joinRemaining .series left right = none ↔ left = none ∨ right = none := by
  cases left <;> cases right <;> simp [joinRemaining]

theorem joinRemaining_parallel_eq_none_iff {π : Type v} {left right : Option (Network π)} :
    joinRemaining .parallel left right = none ↔ left = none ∧ right = none := by
  cases left <;> cases right <;> simp [joinRemaining]

/-- The **resistance** of a network of resistances. A wire in parallel with anything leaves a
wire. -/
def resistance {K : Type u} [Field K] [DecidableEq K] : Network K → K
  | .part resistance => resistance
  | .joined .series left right => left.resistance + right.resistance
  | .joined .parallel left right =>
    if left.resistance = 0 ∨ right.resistance = 0 then 0
    else 1 / (1 / left.resistance + 1 / right.resistance)

end Network

/-- Whether an operand **blocks** direct current. -/
def Operand.Blocks (operand : Operand) : Prop :=
  operand.kind ∈ [some .capacitor, some .constantPhase, some .warburg]

instance : DecidablePred Operand.Blocks :=
  fun operand => inferInstanceAs (Decidable (operand.kind ∈ _))

/-- The **resistance of an operand** at direct current. An inductor is a wire, and what blocks
direct current has none. -/
def Operand.resistance? {K : Type u} [Zero K] (assignment : String → K) (operand : Operand) :
    Option K :=
  match operand.kind with
  | some .resistor => some (assignment operand.literal)
  | some .inductor => some 0
  | some .capacitor | some .constantPhase | some .warburg | none => none

/-- An operand has a resistance at direct current unless it blocks it. -/
theorem Operand.resistance?_eq_none_iff {K : Type u} [Zero K] {assignment : String → K}
    {operand : Operand} (hKind : operand.kind.isSome = true) :
    operand.resistance? assignment = none ↔ operand.Blocks := by
  obtain ⟨kind, hKind⟩ := Option.isSome_iff_exists.mp hKind
  rw [resistance?, Blocks, hKind]
  cases kind <;> simp

/-- The **conducting network** of a tree, if anything is left of it: what blocks direct current is
removed, and inductors are replaced by wires. The parts of the network are resistances. -/
def Expr.conducting? {K : Type u} [Zero K] (assignment : String → K) :
    Expr → Option (Network K)
  | .leaf component => (component.resistance? assignment).map .part
  | .node op left right =>
    Network.joinRemaining op.connection (left.conducting? assignment)
      (right.conducting? assignment)

namespace Expr

/-- Nothing is left of a tree exactly when **every path is blocked**. -/
theorem conducting?_eq_none_iff {K : Type u} [Zero K] {assignment : String → K} {tree : Expr}
    (hKinds : ∀ operand ∈ tree.postorder.operands, operand.kind.isSome = true) :
    tree.conducting? assignment = none ↔ ¬ tree.HasPathOf fun operand => ¬ operand.Blocks := by
  induction tree with
  | leaf component =>
      rw [hasPathOf_leaf, not_not, conducting?, Option.map_eq_none_iff]
      exact Operand.resistance?_eq_none_iff (hKinds component (by simp [postorder]))
  | node op left right ihl ihr =>
      rw [Postfix.operands_postorder_node, List.forall_mem_append] at hKinds
      rw [conducting?]
      rcases hOp : op.connection with - | -
      · rw [hasPathOf_series hOp, not_and_or, ← ihl hKinds.1, ← ihr hKinds.2,
          Network.joinRemaining_series_eq_none_iff]
      · rw [hasPathOf_parallel hOp, not_or, ← ihl hKinds.1, ← ihr hKinds.2,
          Network.joinRemaining_parallel_eq_none_iff]

end Expr

/-! ### Elements -/

/-- The impedance of **what has a given resistance**, or is open. -/
def Extended.ofResistance {α : Type u} [Zero α] : Option α → Extended α
  | some resistance => .finite ⟨resistance, 0⟩
  | none => .infinite

theorem Extended.add_ofResistance {α : Type u} [AddZeroClass α] (first second : α) :
    add (ofResistance (some first)) (ofResistance (some second)) =
      ofResistance (some (first + second)) :=
  congrArg finite (Complex.ext rfl (add_zero 0))

theorem Extended.ofResistance_eq_infinite_iff {α : Type u} [Zero α] {resistance? : Option α} :
    ofResistance resistance? = .infinite ↔ resistance? = none := by
  cases resistance? <;> simp [ofResistance]

theorem Extended.ofResistance_eq_zero_iff {α : Type u} [Zero α] {resistance? : Option α} :
    ofResistance resistance? = .finite 0 ↔ resistance? = some 0 := by
  cases resistance? <;> simp [ofResistance, Complex.ext_iff]

variable {K : Type u} [Field K] [LinearOrder K]

/-- An **element at direct current** has its resistance or is open. -/
theorem Circuit.operandImpedance_at_zero [Elementary K] {assignment : String → K}
    {exponents : Exponents K} {operand : Operand} (hSqrt : Elementary.sqrt (0 : K) = 0)
    (hPow : ∀ exponent : K, 0 < exponent → Elementary.pow 0 exponent = 0)
    (hKind : operand.kind.isSome = true)
    (hExponent : operand.kind = some .constantPhase → 0 < exponents.lookup operand.literal) :
    operandImpedance exponents 0 assignment operand =
      Extended.ofResistance (operand.resistance? assignment) := by
  obtain ⟨kind, hKind⟩ := Option.isSome_iff_exists.mp hKind
  rw [operandImpedance, Operand.resistance?, hKind]
  cases kind with
  | resistor => rfl
  | capacitor => simp [ElementKind.impedance, Extended.ofResistance, Immittance.openCircuit]
  | inductor => exact congrArg Extended.finite (Complex.ext rfl (zero_mul _))
  | constantPhase =>
      have hZero : (Complex.jOmegaPow 0 (exponents.lookup operand.literal)).isZero = true := by
        rw [Complex.isZero_iff, Complex.jOmegaPow, hPow _ (hExponent hKind), Complex.polar]
        exact Complex.ext (zero_mul _) (zero_mul _)
      exact if_pos hZero
  | warburg => simp [ElementKind.impedance, Extended.ofResistance, Immittance.openCircuit, hSqrt]

/-! ### Resistances -/

namespace Operand

variable {assignment : String → K} {operand : Operand}

/-- No operand has a negative resistance when resistors have positive ones. -/
theorem resistance?_nonneg
    (hResistor : operand.kind = some .resistor → 0 < assignment operand.literal) :
    ∀ resistance ∈ operand.resistance? assignment, 0 ≤ resistance := by
  intro resistance hMem
  rw [resistance?] at hMem
  rcases hKind : operand.kind with - | kind <;> rw [hKind] at hMem
  · exact absurd hMem (Option.not_mem_none resistance)
  · cases kind with
    | resistor => exact Option.some.inj hMem ▸ (hResistor hKind).le
    | inductor => exact (Option.some.inj hMem).le
    | capacitor => exact absurd hMem (Option.not_mem_none resistance)
    | constantPhase => exact absurd hMem (Option.not_mem_none resistance)
    | warburg => exact absurd hMem (Option.not_mem_none resistance)

/-- Of all operands only inductors are wires. -/
theorem resistance?_eq_zero_iff
    (hResistor : operand.kind = some .resistor → 0 < assignment operand.literal) :
    operand.resistance? assignment = some 0 ↔ operand.kind = some .inductor := by
  rw [resistance?]
  rcases hKind : operand.kind with - | kind
  · simp
  · cases kind with
    | resistor => simp [(hResistor hKind).ne']
    | inductor => simp
    | capacitor => simp
    | constantPhase => simp
    | warburg => simp

end Operand

variable [IsStrictOrderedRing K]

namespace Network

/-- Whether what is left of a network **is a wire**. -/
def IsWire (network : Option (Network K)) : Prop :=
  network.map resistance = some 0

variable {left right : Option (Network K)}

/-- The conductance of two branches that are no wires. -/
theorem conductance_pos {first second : K} (hFirst : 0 < first) (hSecond : 0 < second) :
    0 < 1 / first + 1 / second :=
  add_pos (one_div_pos.mpr hFirst) (one_div_pos.mpr hSecond)

/-- Connections keep resistances from being negative. -/
theorem resistance_joinRemaining_nonneg (connection : Connection)
    (hLeft : ∀ network ∈ left, 0 ≤ network.resistance)
    (hRight : ∀ network ∈ right, 0 ≤ network.resistance) :
    ∀ network ∈ joinRemaining connection left right, 0 ≤ network.resistance := by
  intro network hMem
  rcases left with - | first <;> rcases right with - | second
  · exact absurd hMem (Option.not_mem_none network)
  · cases connection with
    | series => exact absurd hMem (Option.not_mem_none network)
    | parallel => exact hRight network hMem
  · cases connection with
    | series => exact absurd hMem (Option.not_mem_none network)
    | parallel => exact hLeft network hMem
  · obtain rfl : joined connection first second = network := Option.some.inj hMem
    have hFirst : 0 ≤ first.resistance := hLeft first rfl
    have hSecond : 0 ≤ second.resistance := hRight second rfl
    cases connection with
    | series => exact add_nonneg hFirst hSecond
    | parallel =>
        rw [resistance]
        split_ifs
        · exact le_refl 0
        · positivity

/-- A series connection is a wire when both parts are. -/
theorem isWire_joinRemaining_series (hLeft : ∀ network ∈ left, 0 ≤ network.resistance)
    (hRight : ∀ network ∈ right, 0 ≤ network.resistance) :
    IsWire (joinRemaining .series left right) ↔ IsWire left ∧ IsWire right := by
  rcases left with - | first
  · cases right <;> simp [joinRemaining, IsWire]
  rcases right with - | second
  · simp [joinRemaining, IsWire]
  have hFirst := hLeft first rfl
  have hSecond := hRight second rfl
  simp [joinRemaining, IsWire, resistance, add_eq_zero_iff_of_nonneg hFirst hSecond]

/-- A parallel connection is a wire when one of its parts is. -/
theorem isWire_joinRemaining_parallel (hLeft : ∀ network ∈ left, 0 ≤ network.resistance)
    (hRight : ∀ network ∈ right, 0 ≤ network.resistance) :
    IsWire (joinRemaining .parallel left right) ↔ IsWire left ∨ IsWire right := by
  rcases left with - | first
  · cases right <;> simp [joinRemaining, IsWire]
  rcases right with - | second
  · simp [joinRemaining, IsWire]
  have hFirst := hLeft first rfl
  have hSecond := hRight second rfl
  simp only [joinRemaining, IsWire, resistance, Option.map_some, Option.some.injEq]
  split_ifs with hWire
  · exact iff_of_true rfl hWire
  · obtain ⟨hFirst', hSecond'⟩ := not_or.mp hWire
    have hPositive := conductance_pos (hFirst.lt_of_ne' hFirst') (hSecond.lt_of_ne' hSecond')
    exact iff_of_false (one_div_ne_zero hPositive.ne') hWire

end Network

namespace Expr

variable {assignment : String → K} {tree : Expr}

/-- The conducting network has **no negative resistance**. -/
theorem resistance_conducting?_nonneg
    (hResistors : ∀ operand ∈ tree.postorder.operands, operand.kind = some .resistor →
      0 < assignment operand.literal) :
    ∀ network ∈ tree.conducting? assignment, 0 ≤ network.resistance := by
  induction tree with
  | leaf component =>
      intro network hMem
      obtain ⟨resistance, hResistance, rfl⟩ := Option.map_eq_some_iff.mp hMem
      exact Operand.resistance?_nonneg (hResistors component (by simp [postorder])) _ hResistance
  | node op left right ihl ihr =>
      rw [Postfix.operands_postorder_node, List.forall_mem_append] at hResistors
      exact Network.resistance_joinRemaining_nonneg _ (ihl hResistors.1) (ihr hResistors.2)

/-- The conducting network is a wire exactly when **some path has inductors only**. -/
theorem isWire_conducting?_iff
    (hResistors : ∀ operand ∈ tree.postorder.operands, operand.kind = some .resistor →
      0 < assignment operand.literal) :
    Network.IsWire (tree.conducting? assignment) ↔
      tree.HasPathOf fun operand => operand.kind = some .inductor := by
  induction tree with
  | leaf component =>
      rw [hasPathOf_leaf, Network.IsWire, conducting?, Option.map_map,
        ← Operand.resistance?_eq_zero_iff (hResistors component (by simp [postorder]))]
      exact Iff.of_eq (congrArg (· = some 0) Option.map_id')
  | node op left right ihl ihr =>
      rw [Postfix.operands_postorder_node, List.forall_mem_append] at hResistors
      have hLeft := resistance_conducting?_nonneg hResistors.1
      have hRight := resistance_conducting?_nonneg hResistors.2
      rw [conducting?]
      rcases hOp : op.connection with - | -
      · rw [hasPathOf_series hOp, ← ihl hResistors.1, ← ihr hResistors.2,
          Network.isWire_joinRemaining_series hLeft hRight]
      · rw [hasPathOf_parallel hOp, ← ihl hResistors.1, ← ihr hResistors.2,
          Network.isWire_joinRemaining_parallel hLeft hRight]

end Expr

/-! ### Impedances -/

namespace Extended

/-- An open branch in parallel may be left out. -/
theorem combine_parallel_infinite (z : Extended K) :
    Connection.combine .parallel .infinite z = z := by
  rw [combine_parallel, reciprocal_infinite, Extended.zero_add, reciprocal_reciprocal]

/-- A wire in parallel with anything is a wire. -/
theorem combine_parallel_zero (z : Extended K) :
    Connection.combine .parallel (.finite 0) z = .finite 0 := by
  rw [combine_parallel, reciprocal_zero, infinite_add, reciprocal_infinite]

/-- A resistance in parallel with another one. -/
theorem combine_parallel_ofResistance {first second : K} (hFirst : 0 ≤ first)
    (hSecond : 0 ≤ second) :
    Connection.combine .parallel (ofResistance (some first)) (ofResistance (some second)) =
      ofResistance (some (if first = 0 ∨ second = 0 then 0
        else 1 / (1 / first + 1 / second))) := by
  split_ifs with hWire
  · rcases hWire with rfl | rfl
    · exact combine_parallel_zero _
    · exact (combine_comm .parallel _ _).trans (combine_parallel_zero _)
  · obtain ⟨hFirst', hSecond'⟩ := not_or.mp hWire
    have hPositive : 0 < 1 / first + 1 / second :=
      Network.conductance_pos (hFirst.lt_of_ne' hFirst') (hSecond.lt_of_ne' hSecond')
    exact combine_parallel_real hFirst' hSecond' hPositive.ne'

/-- **Connecting what has resistances** gives what has the resistance of the connection. -/
theorem combine_ofResistance (connection : Connection) {left right : Option (Network K)}
    (hLeft : ∀ network ∈ left, 0 ≤ network.resistance)
    (hRight : ∀ network ∈ right, 0 ≤ network.resistance) :
    connection.combine (ofResistance (left.map Network.resistance))
        (ofResistance (right.map Network.resistance)) =
      ofResistance ((Network.joinRemaining connection left right).map Network.resistance) := by
  cases connection with
  | series =>
      rcases left with - | first <;> rcases right with - | second
      · rfl
      · rfl
      · rfl
      · exact add_ofResistance first.resistance second.resistance
  | parallel =>
      rcases left with - | first <;> rcases right with - | second
      · exact combine_parallel_infinite _
      · exact combine_parallel_infinite _
      · exact (combine_comm .parallel _ _).trans (combine_parallel_infinite _)
      · exact combine_parallel_ofResistance (hLeft first rfl) (hRight second rfl)

end Extended

open Circuit in
/-- The **value of a tree at direct current** is that of its conducting network. -/
theorem Expr.value_eq_ofResistance [Elementary K] {assignment : String → K}
    {exponents : Exponents K} {tree : Expr} (hSqrt : Elementary.sqrt (0 : K) = 0)
    (hPow : ∀ exponent : K, 0 < exponent → Elementary.pow 0 exponent = 0)
    (hKinds : ∀ operand ∈ tree.postorder.operands, operand.kind.isSome = true)
    (hResistors : ∀ operand ∈ tree.postorder.operands, operand.kind = some .resistor →
      0 < assignment operand.literal)
    (hExponents : ∀ operand ∈ tree.postorder.operands, operand.kind = some .constantPhase →
      0 < exponents.lookup operand.literal) :
    tree.value (operandImpedance exponents 0 assignment) =
      Extended.ofResistance ((tree.conducting? assignment).map Network.resistance) := by
  induction tree with
  | leaf component =>
      have hMem : component ∈ (Expr.leaf component).postorder.operands := by simp [postorder]
      rw [value, operandImpedance_at_zero hSqrt hPow (hKinds _ hMem) (hExponents _ hMem),
        conducting?, Option.map_map]
      exact congrArg Extended.ofResistance Option.map_id'.symm
  | node op left right ihl ihr =>
      rw [Postfix.operands_postorder_node, List.forall_mem_append] at hKinds hResistors hExponents
      rw [value, ihl hKinds.1 hResistors.1 hExponents.1, ihr hKinds.2 hResistors.2 hExponents.2]
      exact Extended.combine_ofResistance _ (resistance_conducting?_nonneg hResistors.1)
        (resistance_conducting?_nonneg hResistors.2)

/-! ### Circuits -/

namespace Circuit

variable [Elementary K]

/-- **Direct current.** A circuit of any well-formed source, with names that have impedance laws,
positive resistances and positive exponents of the constant-phase elements, has an impedance at
frequency zero. It is infinite exactly when every path between the terminals has something on it
that blocks direct current, zero exactly when some path has inductors only, and otherwise the
resistance of the conducting network, which is positive. -/
theorem evaluateWith_at_direct_current {precedence : Precedence} {source : String} {chain : Chain}
    (hSpelled : chain.SpelledBy source)
    (hKinds : ∀ operand ∈ chain.operands, operand.kind.isSome = true)
    {circuit : Circuit K} (hReached : Reached precedence source circuit)
    {assignment : String → K} (hHolds : circuit.Holds assignment)
    (hResistors : ∀ operand ∈ chain.operands, operand.kind = some .resistor →
      0 < assignment operand.literal)
    {exponents : Exponents K}
    (hKeys : ∀ key ∈ exponents.map Prod.fst, key ∈ circuit.literals)
    (hExponents : ∀ operand ∈ chain.operands, operand.kind = some .constantPhase →
      0 < exponents.lookup operand.literal)
    (hFinite : Elementary.isFinite (0 : K) = true) (hSqrt : Elementary.sqrt (0 : K) = 0)
    (hPow : ∀ exponent : K, 0 < exponent → Elementary.pow 0 exponent = 0) :
    ∃ impedance : Extended K, circuit.evaluateWith exponents 0 = .ok impedance ∧
      (impedance = .infinite ↔
        ∀ path ∈ (chain.tree precedence).paths, ∃ operand ∈ path, operand.Blocks) ∧
      (impedance = .finite 0 ↔
        ∃ path ∈ (chain.tree precedence).paths, ∀ operand ∈ path,
          operand.kind = some .inductor) ∧
      (impedance ≠ .infinite → impedance ≠ .finite 0 →
        ∃ network, (chain.tree precedence).conducting? assignment = some network ∧
          0 < network.resistance ∧ impedance = .finite ⟨network.resistance, 0⟩) := by
  have hFrequency : Frequency.admissible (0 : K) = true := by
    simp [Frequency.admissible, hFinite]
  have hAngular : Frequency.angular (0 : K) = 0 := mul_zero _
  have hOk := hReached.evaluateWith_eq_ok_value (ζ := Extended K) hSpelled hKinds hHolds
    hKeys hFrequency
  rw [← chain.operands_postorder_tree precedence] at hKinds hResistors hExponents
  rw [hAngular, Expr.value_eq_ofResistance hSqrt hPow hKinds hResistors hExponents] at hOk
  have hBlocked : (chain.tree precedence).conducting? assignment = none ↔ _ :=
    Expr.conducting?_eq_none_iff hKinds
  have hWire := Expr.isWire_conducting?_iff hResistors
  have hNonneg := Expr.resistance_conducting?_nonneg hResistors
  refine ⟨_, hOk, ?_, ?_, ?_⟩
  · rw [Extended.ofResistance_eq_infinite_iff, Option.map_eq_none_iff, hBlocked, Expr.HasPathOf]
    push Not
    rfl
  · rw [Extended.ofResistance_eq_zero_iff]
    exact hWire
  · rcases hNetwork : (chain.tree precedence).conducting? assignment with - | network
    · intro hInfinite
      exact absurd rfl hInfinite
    · intro _ hZero
      have hNotZero : network.resistance ≠ 0 := fun h => hZero (congrArg _ (congrArg some h))
      exact ⟨network, rfl, (hNonneg network hNetwork).lt_of_ne' hNotZero, rfl⟩

/-- Two resistors of 2 ohms in parallel, behind an inductor that shorts a constant-phase element. -/
theorem evaluateWith_of_shorted_constantPhase :
    ∃ circuit : Circuit ℝ, Reached .ranked "R | R - L | Q" circuit ∧
      circuit.components = [("R1", 2), ("R2", 2), ("L1", -1), ("Q1", 0)] ∧
      circuit.evaluateWith (ζ := Extended ℝ) [("Q1", 1 / 2)] 0 = .ok (.finite ⟨1, 0⟩) := by
  have hSpelled : (Chain.link (.component "R1" ⟨"R", 0⟩) ⟨.parallel, ⟨"|", 2⟩⟩
      (.link (.component "R2" ⟨"R", 4⟩) ⟨.series, ⟨"-", 6⟩⟩
        (.link (.component "L1" ⟨"L", 8⟩) ⟨.parallel, ⟨"|", 10⟩⟩
          (.last (.component "Q1" ⟨"Q", 12⟩))))).SpelledBy "R | R - L | Q" := ⟨⟨"", 13⟩, rfl⟩
  have hBuilt : Reached .ranked "R | R - L | Q" (ofPostfix (α := ℝ) "R | R - L | Q" _) :=
    .built (ofSource_eq_ok_iff.mpr ⟨_, hSpelled.parse_eq .ranked, rfl⟩)
  have hReached := hBuilt.setAll [("R1", 2), ("R2", 2), ("L1", -1), ("Q1", 0)]
  have hPow : ∀ exponent : ℝ, 0 < exponent → Elementary.pow 0 exponent = 0 :=
    fun exponent h => Real.zero_rpow h.ne'
  have hKeys : ∀ key ∈ ([("Q1", 1 / 2)] : Exponents ℝ).map Prod.fst,
      key ∈ ["R1", "R2", "L1", "Q1"] := by decide
  refine ⟨_, hReached, rfl, ?_⟩
  have hDirect := evaluateWith_at_direct_current hSpelled (by decide) hReached
    (holds_valueOr _ 0) ?_ hKeys ?_ rfl Real.sqrt_zero hPow
  · obtain ⟨impedance, hOk, hOpen, hWire, hNetwork⟩ := hDirect
    obtain ⟨network, hConducting, -, hImpedance⟩ := hNetwork (mt hOpen.mp (by decide))
      (mt hWire.mp (by decide))
    have hParts : .joined .series (.joined .parallel (.part 2) (.part 2)) (.part 0) = network :=
      Option.some.inj hConducting
    have hResistance : network.resistance = 1 := by
      rw [← hParts]
      norm_num [Network.resistance]
    rw [hOk, hImpedance, hResistance]
  · exact List.forall_mem_cons.mpr ⟨fun _ => two_pos, List.forall_mem_cons.mpr ⟨fun _ => two_pos,
      by decide⟩⟩
  · intro operand hMem hKind
    have hLiteral : operand.literal = "Q1" := by
      revert operand
      decide
    rw [hLiteral]
    exact one_half_pos

end Circuit

end EquivalentCircuit
