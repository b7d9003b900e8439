import EquivalentCircuit.Proofs.Infix
import EquivalentCircuit.Proofs.Letters
import Mathlib.Algebra.BigOperators.Group.List.Basic

/-!
# Many Branches

Any number of networks are joined from left to right, while a circuit joins the same networks in the
order that its tree asks for. In exact arithmetic both come to the same. Immittances with the
infinite point are a commutative monoid under addition, networks in series have the sum for
impedance, and networks in parallel have the reciprocal of the sum of the reciprocals
(`parallel_eq_reciprocal_sum`), so that order and grouping of the branches do not matter. It is no
exception that branches cancel on the way: where the sum of the reciprocals is zero for some of the
branches, they are left as an open branch, which adds nothing to the others.

The sums are over the extended plane. In terms of ordinary numbers a sum is infinite if a summand
is, and a parallel connection is a short circuit if a branch is; otherwise the infinite branches may
be left out of the latter.

## Main results

* `series_eq_sum` and `parallel_eq_reciprocal_sum`: many branches as sums.
* `Connection.joinAll_flatten` and `Connection.joinAll_perm`: grouping and order of the branches.
* `Expr.value_eq_joinAll`: a tree with one kind of connection joins its leaves.
* `Circuit.Reached.evaluate_eq_joinAll`: so does the circuit of a source with one kind of
  connection.
-/

universe u

namespace EquivalentCircuit

/-! ### Joining many networks -/

/-- The impedance of **any number of networks** that are joined by one kind of connection. -/
def Connection.joinAll {ζ α : Type u} [Immittance ζ α] [Zero α] : Connection → List ζ → ζ
  | .series => EquivalentCircuit.series
  | .parallel => EquivalentCircuit.parallel

variable {K : Type u} [Field K]

namespace Extended

/-- The complex number that an extended number is, unless it is infinite. -/
def finite? : Extended K → Option (Complex K)
  | .finite z => some z
  | .infinite => none

instance : Zero (Extended K) := ⟨.finite 0⟩

instance : Add (Extended K) := ⟨add⟩

/-- Extended numbers are a **commutative monoid** under addition. -/
instance : AddCommMonoid (Extended K) where
  add_assoc := Extended.add_assoc
  zero_add := Extended.zero_add
  add_zero := Extended.add_zero
  add_comm := Extended.add_comm
  nsmul := nsmulRec

/-- An infinite summand makes a sum infinite. -/
theorem sum_eq_infinite {summands : List (Extended K)} (h : .infinite ∈ summands) :
    summands.sum = .infinite := by
  induction summands with
  | nil => exact absurd h List.not_mem_nil
  | cons z rest ih =>
      rw [List.sum_cons]
      rcases List.mem_cons.mp h with rfl | hRest
      · exact infinite_add rest.sum
      · rw [ih hRest]
        exact add_infinite z

/-- Without an infinite summand a sum is that of the complex numbers. -/
theorem sum_eq_finite {summands : List (Extended K)} (h : .infinite ∉ summands) :
    summands.sum = .finite (summands.filterMap finite?).sum := by
  induction summands with
  | nil => rfl
  | cons z rest ih =>
      rw [List.mem_cons, not_or] at h
      obtain ⟨hZ, hRest⟩ := h
      cases z with
      | infinite => exact absurd rfl hZ
      | finite z =>
          rw [List.sum_cons, ih hRest]
          rfl

/-- The **sum of the admittances** of the branches that are not open. -/
def totalAdmittance (branches : List (Extended K)) : Complex K :=
  ((branches.filterMap finite?).map Complex.inv).sum

variable [LinearOrder K]

/-- Without a shorted branch the reciprocals add up to the sum of the admittances: open branches add
nothing. -/
theorem sum_reciprocal {branches : List (Extended K)} (h : .finite 0 ∉ branches) :
    (branches.map reciprocal).sum = .finite (totalAdmittance branches) := by
  induction branches with
  | nil => rfl
  | cons z rest ih =>
      rw [List.mem_cons, not_or] at h
      obtain ⟨hZ, hRest⟩ := h
      rw [List.map_cons, List.sum_cons, ih hRest]
      cases z with
      | infinite =>
          rw [reciprocal_infinite]
          exact Extended.zero_add _
      | finite z =>
          rw [reciprocal_finite fun hZero => hZ (congrArg finite hZero.symm)]
          rfl

end Extended

open Extended

/-! ### Sums -/

variable [LinearOrder K]

/-- **Networks in series** have the sum of their impedances. -/
theorem series_eq_sum (branches : List (Extended K)) : series branches = branches.sum :=
  List.sum_eq_foldl.symm

/-- A single network is not changed by joining it. -/
theorem Connection.joinAll_singleton (connection : Connection) (z : Extended K) :
    connection.joinAll [z] = z := by
  cases connection with
  | series => exact Extended.zero_add z
  | parallel => rfl

variable [IsStrictOrderedRing K]

/-- Joining further branches in parallel adds their reciprocals. -/
theorem reciprocal_foldl_combine (first : Extended K) (others : List (Extended K)) :
    (others.foldl (Connection.combine .parallel) first).reciprocal =
      first.reciprocal + (others.map reciprocal).sum := by
  induction others generalizing first with
  | nil => exact (add_zero first.reciprocal).symm
  | cons z rest ih =>
      rw [List.foldl_cons, ih, combine_parallel, reciprocal_reciprocal, List.map_cons,
        List.sum_cons, ← add_assoc]
      rfl

/-- **Networks in parallel** have the reciprocal of the sum of their reciprocals. -/
theorem parallel_eq_reciprocal_sum (branches : List (Extended K)) :
    parallel branches = (branches.map reciprocal).sum.reciprocal := by
  rcases branches with - | ⟨first, others⟩
  · exact reciprocal_zero.symm
  · rw [← reciprocal_reciprocal (parallel (first :: others)), parallel,
      reciprocal_foldl_combine, List.map_cons, List.sum_cons]

/-- A **shorted branch** shorts all branches. -/
theorem parallel_eq_zero {branches : List (Extended K)} (h : .finite 0 ∈ branches) :
    parallel branches = .finite 0 := by
  have hInfinite : .infinite ∈ branches.map reciprocal :=
    List.mem_map.mpr ⟨.finite 0, h, reciprocal_zero⟩
  rw [parallel_eq_reciprocal_sum, sum_eq_infinite hInfinite, reciprocal_infinite]

/-- Without a shorted branch the impedance is the reciprocal of the sum of the admittances. -/
theorem parallel_eq_reciprocal_totalAdmittance {branches : List (Extended K)}
    (h : .finite 0 ∉ branches) :
    parallel branches = (Extended.finite (totalAdmittance branches)).reciprocal := by
  rw [parallel_eq_reciprocal_sum, sum_reciprocal h]

/-! ### Order and grouping -/

/-- **Grouping** does not matter: groups may be joined first. -/
theorem Connection.joinAll_flatten (connection : Connection)
    (groups : List (List (Extended K))) :
    connection.joinAll groups.flatten = connection.joinAll (groups.map connection.joinAll) := by
  cases connection with
  | series =>
      have hSeries : joinAll (ζ := Extended K) .series = List.sum := funext series_eq_sum
      rw [hSeries, List.sum_flatten]
  | parallel =>
      have hGroups : (groups.map EquivalentCircuit.parallel).map reciprocal =
          (groups.map (List.map reciprocal)).map List.sum := by
        rw [List.map_map, List.map_map]
        refine List.map_congr_left fun group _ => ?_
        rw [Function.comp_apply, Function.comp_apply, parallel_eq_reciprocal_sum,
          reciprocal_reciprocal]
      rw [joinAll, parallel_eq_reciprocal_sum, parallel_eq_reciprocal_sum, hGroups,
        ← List.sum_flatten, List.map_flatten]

/-- **Order** does not matter. -/
theorem Connection.joinAll_perm (connection : Connection) {branches others : List (Extended K)}
    (h : branches.Perm others) : connection.joinAll branches = connection.joinAll others := by
  cases connection with
  | series => rw [joinAll, series_eq_sum, series_eq_sum, h.sum_eq]
  | parallel =>
      rw [joinAll, parallel_eq_reciprocal_sum, parallel_eq_reciprocal_sum,
        (h.map reciprocal).sum_eq]

/-- Two groups are joined by one connection. -/
theorem Connection.joinAll_append (connection : Connection) (front back : List (Extended K)) :
    connection.joinAll (front ++ back) =
      connection.combine (connection.joinAll front) (connection.joinAll back) := by
  have hPair : ∀ z w : Extended K, connection.joinAll [z, w] = connection.combine z w := by
    intro z w
    cases connection with
    | series => exact congrArg (Extended.add · w) (Extended.zero_add z)
    | parallel => rfl
  have hFlatten := connection.joinAll_flatten [front, back]
  rwa [List.flatten_cons, List.flatten_cons, List.flatten_nil, List.append_nil, List.map_cons,
    List.map_singleton, hPair] at hFlatten

/-- A tree in which all operators make **the same connection** joins its operands. -/
theorem Expr.value_eq_joinAll {connection : Connection} {tree : Expr}
    (h : ∀ op ∈ tree.postorder.operators, op.connection = connection)
    (leafValue : Operand → Extended K) :
    tree.value leafValue = connection.joinAll (tree.postorder.operands.map leafValue) := by
  induction tree with
  | leaf operand => exact (connection.joinAll_singleton (leafValue operand)).symm
  | node op left right ihl ihr =>
      rw [Postfix.operators_postorder_node, List.forall_mem_append, List.forall_mem_append] at h
      rw [value, ihl h.1.1, ihr h.1.2, h.2 op (List.mem_singleton_self op),
        Postfix.operands_postorder_node, List.map_append, connection.joinAll_append]

/-! ### Circuits -/

namespace Circuit

variable [Elementary K]

/-- A well-formed source in which all operators make **the same connection**, in groups or not,
evaluates to its elements joined by that connection. -/
theorem Reached.evaluate_eq_joinAll {precedence : Precedence} {source : String} {chain : Chain}
    {circuit : Circuit K} (h : Reached precedence source circuit)
    (hSpelled : chain.SpelledBy source)
    (hLetters : ∀ operand ∈ chain.operands,
      (ElementKind.ofFirstLetter? operand.lexeme.text).isSome = true) {connection : Connection}
    (hOne : ∀ op, Token.operator op ∈ chain.tokens → op.connection = connection)
    {assignment : String → K} (hHolds : circuit.Holds assignment) {frequency : K}
    (hFinite : Elementary.isFinite frequency = true) (hNonnegative : ¬ frequency < 0) :
    circuit.evaluate frequency = .ok (connection.joinAll (chain.operands.map
      (impedanceByLetter (ζ := Extended K) [] (Elementary.tau * frequency) assignment))) := by
  have hNone : (chain.operands.find? fun operand =>
      (ElementKind.ofFirstLetter? operand.lexeme.text).isNone) = none :=
    Chain.find?_isNone_eq_none hLetters
  have hOperators : ∀ op ∈ (chain.tree precedence).postorder.operators,
      op.connection = connection := by
    intro op hMem
    exact hOne op (Postfix.mem_of_mem_operators (Postfix.ofTokens_chain precedence chain) hMem)
  rw [evaluate, h.evaluateWith_eq_value_impedanceByLetter hSpelled hHolds (by simp) hFinite
    hNonnegative, hNone, Expr.value_eq_joinAll hOperators, chain.operands_postorder_tree]

/-- **Many branches.** Branches in parallel are a short circuit if one of them is. Otherwise their
impedance is the reciprocal of the sum of the reciprocals of the branches that are not open, and
they are open if that sum is zero or if no such branch is left; a number other than zero times its
reciprocal is one. Branches in series are open if one of them is, and otherwise have the sum of the
impedances. Neither depends on the order of the branches or on how they are grouped. A well-formed
source whose names all begin with the letter of an impedance law, and whose operators all make one
connection, has a circuit with any assignment of values, and at every frequency that is finite and
not negative the circuit evaluates to its elements joined by that connection, under either
precedence. -/
theorem joins_many_branches :
    (∀ z : Complex K, z ≠ 0 → z * z.inv = 1) ∧
    (∀ branches : List (Extended K),
      (.finite 0 ∈ branches → parallel branches = .finite 0) ∧
      (.finite 0 ∉ branches →
        (branches.filterMap finite? = [] ∨ totalAdmittance branches = 0 →
          parallel branches = .infinite) ∧
        (totalAdmittance branches ≠ 0 →
          parallel branches = .finite (totalAdmittance branches).inv)) ∧
      (.infinite ∈ branches → series branches = .infinite) ∧
      (.infinite ∉ branches → series branches = .finite (branches.filterMap finite?).sum) ∧
      (∀ others : List (Extended K), others.Perm branches →
        parallel others = parallel branches ∧ series others = series branches) ∧
      ∀ groups : List (List (Extended K)), groups.flatten = branches →
        parallel (groups.map parallel) = parallel branches ∧
          series (groups.map series) = series branches) ∧
    ∀ (precedence : Precedence) (source : String) (chain : Chain), chain.SpelledBy source →
      (∀ operand ∈ chain.operands,
        (ElementKind.ofFirstLetter? operand.lexeme.text).isSome = true) →
      ∀ assignment : String → K,
        (∃ circuit : Circuit K, Reached precedence source circuit ∧ circuit.Holds assignment) ∧
        ∀ circuit : Circuit K, Reached precedence source circuit → circuit.Holds assignment →
          ∀ connection, (∀ op, Token.operator op ∈ chain.tokens → op.connection = connection) →
            ∀ frequency : K, Elementary.isFinite frequency = true → ¬ frequency < 0 →
              circuit.evaluate frequency = .ok (connection.joinAll (chain.operands.map
                (impedanceByLetter (ζ := Extended K) [] (Elementary.tau * frequency)
                  assignment))) := by
  refine ⟨fun z hZ => Complex.mul_inv hZ, ?_, ?_⟩
  · intro branches
    refine ⟨parallel_eq_zero, fun hShort => ⟨?_, fun hSum => ?_⟩, fun hOpen => ?_, fun hOpen => ?_,
      fun others hPerm => ?_, fun groups hGroups => ?_⟩
    · intro hSum
      have hZero : totalAdmittance branches = 0 := by
        rcases hSum with hNone | hZero
        · rw [totalAdmittance, hNone]
          rfl
        · exact hZero
      rw [parallel_eq_reciprocal_totalAdmittance hShort, hZero, reciprocal_zero]
    · rw [parallel_eq_reciprocal_totalAdmittance hShort, reciprocal_finite hSum]
    · rw [series_eq_sum, sum_eq_infinite hOpen]
    · rw [series_eq_sum, sum_eq_finite hOpen]
    · exact ⟨Connection.parallel.joinAll_perm hPerm, Connection.series.joinAll_perm hPerm⟩
    · subst hGroups
      exact ⟨(Connection.parallel.joinAll_flatten groups).symm,
        (Connection.series.joinAll_flatten groups).symm⟩
  · intro precedence source chain hSpelled hLetters assignment
    refine ⟨exists_reached_holds (.built (ofSource_eq_ok_iff.mpr
      ⟨_, hSpelled.parse_eq precedence, rfl⟩)) assignment, ?_⟩
    intro circuit hReached hHolds connection hOne frequency hFinite hNonnegative
    exact hReached.evaluate_eq_joinAll hSpelled hLetters hOne hHolds hFinite hNonnegative

/-- Resistors of 1, -1, 4 and 4 ohms and an open branch. The first two cancel, the open branch adds
nothing, and the other two have half of their resistance. Without the open branch they are the
circuit of `R | R | R | R`. -/
theorem joins_cancelling_branches :
    parallel [.finite ⟨1, 0⟩, .finite ⟨-1, 0⟩, .infinite, .finite ⟨4, 0⟩, .finite ⟨4, 0⟩] =
        (.finite ⟨2, 0⟩ : Extended ℝ) ∧
      ∃ circuit : Circuit ℝ, Reached .ranked "R | R | R | R" circuit ∧
        circuit.components = [("R1", 1), ("R2", -1), ("R3", 4), ("R4", 4)] ∧
        circuit.evaluate 1 = .ok (.finite ⟨2, 0⟩ : Extended ℝ) := by
  obtain ⟨-, hBranches, hCircuits⟩ := joins_many_branches (K := ℝ)
  -- With or without the open branch half a siemens is left.
  have hHalf : ∀ branches : List (Extended ℝ), .finite 0 ∉ branches →
      totalAdmittance branches = ⟨1 / 2, 0⟩ → parallel branches = .finite ⟨2, 0⟩ := by
    intro branches hShort hTotal
    have hNonzero : totalAdmittance branches ≠ 0 := by
      rw [hTotal]
      simp [Complex.ext_iff]
    rw [((hBranches branches).2.1 hShort).2 hNonzero, hTotal, Complex.inv_real, one_div_one_div]
  have hTotal : (⟨1, 0⟩ : Complex ℝ).inv + ((⟨-1, 0⟩ : Complex ℝ).inv +
      ((⟨4, 0⟩ : Complex ℝ).inv + ((⟨4, 0⟩ : Complex ℝ).inv + 0))) = ⟨1 / 2, 0⟩ := by
    rw [Complex.inv_real, Complex.inv_real, Complex.inv_real]
    norm_num [Complex.ext_iff]
  have hSpelled : (Chain.link (.component "R1" ⟨"R", 0⟩) ⟨.parallel, ⟨"|", 2⟩⟩
      (.link (.component "R2" ⟨"R", 4⟩) ⟨.parallel, ⟨"|", 6⟩⟩
        (.link (.component "R3" ⟨"R", 8⟩) ⟨.parallel, ⟨"|", 10⟩⟩
          (.last (.component "R4" ⟨"R", 12⟩))))).SpelledBy "R | R | R | R" := ⟨⟨"", 13⟩, rfl⟩
  have hBuilt : Reached .ranked "R | R | R | R" (ofPostfix (α := ℝ) "R | R | R | R" _) :=
    .built (ofSource_eq_ok_iff.mpr ⟨_, hSpelled.parse_eq .ranked, rfl⟩)
  have hReached := hBuilt.setAll [("R2", -1), ("R3", 4), ("R4", 4)]
  obtain ⟨-, hEvaluate⟩ :=
    hCircuits .ranked _ _ hSpelled (by decide) (valueOr _ 0)
  refine ⟨hHalf _ (by simp [Complex.ext_iff]) hTotal, _, hReached, rfl, ?_⟩
  have hOk := hEvaluate _ hReached (holds_valueOr _ 0) .parallel
    (by simp [Chain.tokens, Term.tokens]) 1 rfl (not_lt.mpr zero_le_one)
  refine hOk.trans (congrArg Except.ok ?_)
  exact hHalf [.finite ⟨1, 0⟩, .finite ⟨-1, 0⟩, .finite ⟨4, 0⟩, .finite ⟨4, 0⟩]
    (by simp [Complex.ext_iff]) hTotal

end Circuit

end EquivalentCircuit
