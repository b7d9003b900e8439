import EquivalentCircuit.Proofs.Outcomes
import EquivalentCircuit.Proofs.RoundedGrids
import EquivalentCircuit.Proofs.Sweeps

/-!
# Sweeps over Logarithmic Grids

A circuit refuses frequencies that are not finite or below zero. A grid with a constant ratio asks
whether its bounds are zero or negative, and so it is tempting to expect that all of its frequencies
are accepted. Between ordinary bounds they are. There are two exceptions
(`Grid.logarithmic_admissible_iff`).

* A comparison with NaN is false, so that NaN passes as a bound, and infinity is no negative number.
  Then the first frequency is infinite or NaN.
* Near the greatest number a point may be rounded to an exponent at which the exponential overflows,
  although it does not at the bounds.

The exponential and the logarithm of double precision are computed by a library, which is given
here by what it guarantees (`Binary64.IsFaithful`): the values at NaN and at infinity, the range of
the logarithm, and the operands at which the exponential overflows. How far off their values may be
in between is left open.

## Main results

* `Grid.logarithmic_admissible_iff`: when all frequencies of a grid are admissible.
* `Circuit.admissible_eq_false_of_spectrum` and
  `Circuit.Reached.exists_spectrum_eq_invalidFrequency`: when a spectrum reports a frequency.
* `Circuit.spectrum_of_logarithmic_grid`: both together.
-/

universe u

namespace EquivalentCircuit

/-! ### Operands of the logarithm -/

namespace Binary64

/-- A number that is **not below or equal to zero** need not be above zero: it may be NaN. -/
theorem not_le_zero_iff (x : Binary64) :
    ¬x ≤ 0 ↔ x.isNaN = true ∨ x = infinity ∨ x.isFinite = true ∧ 0 < x := by
  rw [le_iff, lt_iff, isNaN_eq, isFinite_eq]
  have hInfinity : x = infinity ↔ x.unpacked = .infinity .positive :=
    ⟨fun h => h ▸ rfl, eq_infinity_of_unpacked⟩
  rw [hInfinity]
  rcases x.unpacked with ⟨_ | _⟩ | _ | ⟨_ | _⟩ | ⟨_ | _, mantissa, exponent, hPos⟩
  case notANumber => exact iff_of_true Bool.false_ne_true (.inl rfl)
  case infinity.positive => exact iff_of_true Bool.false_ne_true (.inr (.inl rfl))
  case finite.positive => exact iff_of_true Bool.false_ne_true (.inr (.inr ⟨rfl, rfl⟩))
  all_goals
    refine iff_of_false (not_not.mpr rfl) ?_
    rintro (h | h | ⟨-, h⟩) <;> cases h

/-- The **greatest exponent** at which the exponential does not overflow. The logarithm of the
greatest number is the last number before it. -/
def greatestExponent : ℚ :=
  709.782712893384

/-- The logarithm of the greatest number. -/
def logGreatest : Binary64 := ⟨0x40862e42fefa39ef⟩

/-- What a library **guarantees** about the exponential and the logarithm. Both keep NaN and the
positive infinity. The logarithm of a positive number lies between those of the least and the
greatest one, and the exponential overflows beyond the greatest exponent and nowhere else. -/
structure IsFaithful (elementary : Elementary Binary64) : Prop where
  isFinite_eq (x : Binary64) : elementary.isFinite x = x.isFinite
  isNaN_exp (x : Binary64) : x.isNaN = true → (elementary.exp x).isNaN = true
  isNaN_log (x : Binary64) : x.isNaN = true → (elementary.log x).isNaN = true
  exp_infinity : elementary.exp infinity = infinity
  log_infinity : elementary.log infinity = infinity
  isFinite_log (x : Binary64) : x.isFinite = true → 0 < x → (elementary.log x).isFinite = true
  log_bounds (x : Binary64) : x.isFinite = true → 0 < x →
    -746 ≤ (elementary.log x).value ∧ (elementary.log x).value ≤ greatestExponent
  exp_nonneg (x : Binary64) : x.isFinite = true → ¬elementary.exp x < 0
  isFinite_exp_iff (x : Binary64) : x.isFinite = true →
    ((elementary.exp x).isFinite = true ↔ x.value ≤ greatestExponent)

section Library

variable {elementary : Elementary Binary64} (hFaithful : IsFaithful elementary) {x : Binary64}

include hFaithful

/-- The logarithm of a bound that is not finite is **not finite** either. -/
theorem IsFaithful.log_of_not_finite (h : ¬x ≤ 0) (hx : x.isFinite = false) :
    (elementary.log x).isNaN = true ∨ elementary.log x = infinity := by
  rcases x.not_le_zero_iff.mp h with hNaN | rfl | ⟨hFinite, -⟩
  · exact .inl (hFaithful.isNaN_log x hNaN)
  · exact .inr hFaithful.log_infinity
  · exact absurd hFinite (by simp [hx])

/-- The logarithm of a finite number is **finite** and moderate. -/
theorem IsFaithful.log_of_finite (h : ¬x ≤ 0) (hx : x.isFinite = true) :
    (elementary.log x).isFinite = true ∧ |(elementary.log x).value| ≤ 1000 ∧
      (elementary.log x).value ≤ greatestExponent := by
  have hPos : 0 < x := by
    rcases x.not_le_zero_iff.mp h with hNaN | rfl | ⟨-, hPos⟩
    · exact absurd hx (by simp [isFinite_of_isNaN hNaN])
    · cases hx
    · exact hPos
  obtain ⟨hLow, hHigh⟩ := hFaithful.log_bounds x hx hPos
  refine ⟨hFaithful.isFinite_log x hx hPos, abs_le.mpr ⟨by linarith, hHigh.trans ?_⟩, hHigh⟩
  norm_num [greatestExponent]

/-- The exponential of a finite number is **admissible** unless it overflows. -/
theorem IsFaithful.admissible_exp_iff (hx : x.isFinite = true) :
    Frequency.admissible (elementary.exp x) = true ↔ x.value ≤ greatestExponent := by
  have hNonneg := hFaithful.exp_nonneg x hx
  rw [Frequency.admissible, hFaithful.isFinite_eq, decide_eq_false hNonneg, Bool.not_false,
    Bool.and_true]
  exact hFaithful.isFinite_exp_iff x hx

/-- At NaN and at infinity the exponential is **not admissible**. -/
theorem IsFaithful.admissible_exp_eq_false (h : x.isNaN = true ∨ x = infinity) :
    Frequency.admissible (elementary.exp x) = false := by
  suffices hExp : (elementary.exp x).isFinite = false by
    rw [Frequency.admissible, hFaithful.isFinite_eq, hExp, Bool.false_and]
  rcases h with hNaN | rfl
  · exact isFinite_of_isNaN (hFaithful.isNaN_exp x hNaN)
  · rw [hFaithful.exp_infinity]
    rfl

end Library

/-- The number two. -/
def two : Binary64 := ⟨0x4000000000000000⟩

/-- The logarithm of two. -/
def logTwo : Binary64 := ⟨0x3fe62e42fefa39ef⟩

/-- A **coarse library**. It knows the logarithms of one and two and their exponentials, and the
operands that are not finite, and says one or zero otherwise. -/
@[reducible]
def coarse : Elementary Binary64 where
  tau := Elementary.tau
  quarterTurn := Elementary.quarterTurn
  sqrt := Elementary.sqrt
  exp x :=
    if x.isFinite = false then exp x
    else if greatestExponent < x.value then infinity
    else if x == logTwo then two
    else 1
  log x :=
    if x.isFinite = false then log x
    else if x == two then logTwo
    else 0
  sin := Elementary.sin
  cos := Elementary.cos
  pow := Elementary.pow
  isFinite := isFinite

theorem exp_coarse {x : Binary64} (h : x.isFinite = true) : coarse.exp x =
    if greatestExponent < x.value then infinity else if x == logTwo then two else 1 :=
  if_neg (by simp [h])

theorem log_coarse {x : Binary64} (h : x.isFinite = true) :
    coarse.log x = if x == two then logTwo else 0 :=
  if_neg (by simp [h])

/-- What a library guarantees says little about the values in between. -/
theorem isFaithful_coarse : IsFaithful coarse where
  isFinite_eq _ := rfl
  isNaN_exp x hx := by
    rw [show coarse.exp x = exp x from if_pos (isFinite_of_isNaN hx), exp, if_pos hx]
    rfl
  isNaN_log x hx := by
    rw [show coarse.log x = log x from if_pos (isFinite_of_isNaN hx), log, if_pos hx]
    rfl
  exp_infinity := rfl
  log_infinity := rfl
  isFinite_log x hx _ := by
    rw [log_coarse hx]
    split <;> rfl
  log_bounds x hx _ := by
    rw [log_coarse hx]
    split <;> decide +kernel
  exp_nonneg x hx := by
    rw [exp_coarse hx]
    split_ifs <;> decide
  isFinite_exp_iff x hx := by
    rw [exp_coarse hx]
    split_ifs with hLarge
    · exact iff_of_false (by decide) hLarge.not_ge
    all_goals exact iff_of_true rfl (not_lt.mp hLarge)

end Binary64

/-! ### Exponents -/

namespace Grid

open Binary64

section Library

variable {elementary : Elementary Binary64} (hFaithful : IsFaithful elementary)
  {start stop : Binary64} {n : ℕ}

include hFaithful

/-- A bound that is **not finite** shows in the first exponent, and so in the first frequency. A
single point does not depend on the other bound. -/
theorem exists_exponent_not_finite (hStart : ¬start ≤ 0) (hStop : ¬stop ≤ 0) (hn : n < 2 ^ 64)
    (hSome : n ≠ 0) (h : start.isFinite = false ∨ n ≠ 1 ∧ stop.isFinite = false) :
    ∃ exponent ∈ linear (elementary.log start) (elementary.log stop) n,
      exponent.isNaN = true ∨ exponent = infinity := by
  rcases Nat.lt_or_ge n 2 with hFew | hMany
  · obtain rfl : n = 1 := by omega
    exact ⟨_, List.mem_singleton_self _,
      hFaithful.log_of_not_finite hStart (h.resolve_right fun hOther => hOther.1 rfl)⟩
  · obtain ⟨share, hShare, hMem⟩ :=
      exists_interpolate_mem_linear (elementary.log start) (elementary.log stop) hMany hn
    refine ⟨_, hMem, ?_⟩
    cases hStopFinite : stop.isFinite with
    | false =>
        refine .inl (isNaN_interpolate hShare (.inr ?_))
        rcases hFaithful.log_of_not_finite hStop hStopFinite with hNaN | hInfinity
        · exact isFinite_of_isNaN hNaN
        · rw [hInfinity]
          rfl
    | true =>
        have hStartFinite : start.isFinite = false := by simpa [hStopFinite] using h
        rcases hFaithful.log_of_not_finite hStart hStartFinite with hNaN | hInfinity
        · exact .inl (isNaN_interpolate hShare (.inl hNaN))
        · rw [hInfinity]
          exact .inr (interpolate_infinity hShare (hFaithful.log_of_finite hStop hStopFinite).1)

/-- Between finite bounds **all exponents** are finite. -/
theorem isFinite_exponent (hStart : ¬start ≤ 0) (hStop : ¬stop ≤ 0) (hn : n < 2 ^ 64)
    (hFinite : start.isFinite = true) (hFinite' : n = 1 ∨ stop.isFinite = true)
    {exponent : Binary64}
    (h : exponent ∈ linear (elementary.log start) (elementary.log stop) n) :
    exponent.isFinite = true := by
  obtain ⟨hLog, hBound, -⟩ := hFaithful.log_of_finite hStart hFinite
  rcases hFinite' with rfl | hFinite'
  · obtain rfl := List.mem_singleton.mp h
    exact hLog
  · obtain ⟨hLog', hBound', -⟩ := hFaithful.log_of_finite hStop hFinite'
    exact (isFinite_of_mem_linear hLog hLog' hBound hBound' hn h).1

/-! ### Frequencies -/

/-- **All frequencies of a grid are admissible** exactly when there are none, or when the bounds are
finite and the exponential overflows at no exponent. -/
theorem logarithmic_admissible_iff (hn : n < 2 ^ 64) :
    (∀ hertz ∈ logarithmic start stop n, Frequency.admissible hertz = true) ↔
      n = 0 ∨ start ≤ 0 ∨ stop ≤ 0 ∨
        (start.isFinite = true ∧ (n = 1 ∨ stop.isFinite = true) ∧
          ∀ exponent ∈ linear (elementary.log start) (elementary.log stop) n,
            exponent.value ≤ greatestExponent) := by
  by_cases hEmpty : n = 0 ∨ start ≤ 0 ∨ stop ≤ 0
  · rw [(logarithmic_eq_nil_iff start stop n).mpr hEmpty]
    exact iff_of_true (by simp) (by tauto)
  obtain ⟨hSome, hBounds⟩ := not_or.mp hEmpty
  obtain ⟨hStart, hStop⟩ := not_or.mp hBounds
  rw [or_iff_right hSome, or_iff_right hStart, or_iff_right hStop,
    logarithmic_of_not_le_zero n hStart hStop, List.forall_mem_map]
  by_cases hFinite : start.isFinite = true ∧ (n = 1 ∨ stop.isFinite = true)
  · rw [← and_assoc, and_iff_right hFinite]
    exact forall₂_congr fun exponent hMem => hFaithful.admissible_exp_iff
      (isFinite_exponent hFaithful hStart hStop hn hFinite.1 hFinite.2 hMem)
  · refine iff_of_false (fun hAll => ?_) fun h => hFinite ⟨h.1, h.2.1⟩
    obtain ⟨exponent, hMem, hExponent⟩ := exists_exponent_not_finite hFaithful hStart hStop hn hSome
      (by simpa [imp_iff_not_or, not_and_or] using hFinite)
    exact absurd (hAll exponent hMem) (by simp [hFaithful.admissible_exp_eq_false hExponent])

/-- Between equal bounds a grid need not be constant: at the logarithm of the greatest number one of
fourteen points is rounded upwards, and the exponential overflows there. -/
example : logGreatest.value ≤ greatestExponent ∧
    ∃ exponent ∈ linear logGreatest logGreatest 14, greatestExponent < exponent.value := by
  decide +kernel

/-- Between finite positive bounds that stay clear of the greatest number **all frequencies are
admissible**. -/
theorem admissible_of_log_le (hn : n < 2 ^ 64) (hFinite : start.isFinite = true)
    (hFinite' : stop.isFinite = true) (hBound : (elementary.log start).value ≤ 709)
    (hBound' : (elementary.log stop).value ≤ 709) :
    ∀ hertz ∈ logarithmic start stop n, Frequency.admissible hertz = true := by
  rw [logarithmic_admissible_iff hFaithful hn]
  by_cases hStart : start ≤ 0
  · exact .inr (.inl hStart)
  by_cases hStop : stop ≤ 0
  · exact .inr (.inr (.inl hStop))
  refine .inr (.inr (.inr ⟨hFinite, .inr hFinite', fun exponent hMem => ?_⟩))
  obtain ⟨hLog, hModerate, -⟩ := hFaithful.log_of_finite hStart hFinite
  obtain ⟨hLog', hModerate', -⟩ := hFaithful.log_of_finite hStop hFinite'
  calc exponent.value
      ≤ max (elementary.log start).value (elementary.log stop).value + 1 / 2 ^ 28 :=
        (isFinite_of_mem_linear hLog hLog' hModerate hModerate' hn hMem).2
    _ ≤ 709 + 1 / 2 ^ 28 := by gcongr; exact max_le hBound hBound'
    _ ≤ greatestExponent := by norm_num [greatestExponent]

end Library

end Grid

/-! ### Reported frequencies -/

namespace Circuit

open Binary64 (IsFaithful coarse isFaithful_coarse greatestExponent infinity nan two)

section Reports

variable {ζ α : Type u} [Immittance ζ α] [Zero α] [One α] [Add α] [Sub α] [Neg α] [Mul α]
  [Div α] [BEq α] [Elementary α] {circuit : Circuit α} {exponents : Exponents α}

/-- Running the steps of a circuit reports no frequency. -/
theorem run_ne_invalidFrequency (omega hertz : α) (stack : List ζ)
    (steps : List (Step (Fin circuit.literals.length))) :
    circuit.run exponents omega stack steps ≠ .error (.invalidFrequency hertz) := by
  fun_induction run circuit exponents omega stack steps with
  | case3 _ _ _ _ ih | case5 _ _ _ _ _ ih => exact ih
  | _ => simp

variable [LT α] [DecidableLT α]

/-- An evaluation reports its frequency only when that is **not admissible**. -/
theorem admissible_eq_false_of_evaluate {frequency hertz : α}
    (h : circuit.evaluate (ζ := ζ) frequency = .error (.invalidFrequency hertz)) :
    frequency = hertz ∧ Frequency.admissible hertz = false := by
  change circuit.impedance [] frequency = _ at h
  rw [impedance] at h
  split at h
  · exact absurd h (run_ne_invalidFrequency _ _ _ _)
  · next hFrequency =>
      cases h
      exact ⟨rfl, Bool.eq_false_iff.mpr hFrequency⟩

/-- A spectrum reports only frequencies that it was asked for and that are **not admissible**. -/
theorem admissible_eq_false_of_spectrum {frequencies : List α} {hertz : α}
    (h : circuit.spectrum (ζ := ζ) frequencies = .error (.circuit (.invalidFrequency hertz))) :
    hertz ∈ frequencies ∧ Frequency.admissible hertz = false := by
  obtain ⟨cause, hSweep, hCause⟩ := spectrum_eq_error_iff.mp h
  obtain rfl := Error.circuit.inj hCause
  obtain ⟨before, frequency, after, rfl, -, hError⟩ := (sweepWith_eq_error_iff (by simp)).mp hSweep
  obtain ⟨rfl, hFrequency⟩ := admissible_eq_false_of_evaluate hError
  exact ⟨by simp, hFrequency⟩

/-- A circuit that has an impedance **reports** a frequency that is not admissible. -/
theorem Reached.exists_spectrum_eq_invalidFrequency {precedence : Precedence} {source : String}
    (h : Reached precedence source circuit) (hOutcome : circuit.items.outcome (α := α) = .ok ())
    {frequencies : List α} {frequency : α} (hMem : frequency ∈ frequencies)
    (hFrequency : Frequency.admissible frequency = false) :
    ∃ hertz, circuit.spectrum (ζ := ζ) frequencies =
      .error (.circuit (.invalidFrequency hertz)) := by
  rcases hSweep : circuit.sweep (ζ := ζ) frequencies with cause | impedances
  · obtain ⟨before, hertz, after, -, -, hError⟩ := (sweepWith_eq_error_iff (by simp)).mp hSweep
    refine ⟨hertz, spectrum_eq_error_iff.mpr ⟨cause, hSweep, ?_⟩⟩
    cases hHertz : Frequency.admissible hertz with
    | false =>
        rw [evaluateWith_of_not_admissible circuit (by simp) hHertz] at hError
        rw [Except.error.inj hError]
    | true =>
        have hEvaluates : (circuit.evaluateWith (ζ := ζ) [] hertz).map (fun _ => ()) = _ :=
          h.map_evaluateWith_eq_outcome (by simp) hHertz
        rw [hError, hOutcome] at hEvaluates
        cases hEvaluates
  · obtain ⟨impedance, -, hOk⟩ :=
      exists_mem_of_forall₂ ((sweepWith_eq_ok_iff (by simp)).mp hSweep) hMem
    rw [evaluateWith_of_not_admissible circuit (by simp) hFrequency] at hOk
    cases hOk

end Reports

/-- **Sweeps over logarithmic grids.** A grid with a constant ratio is empty exactly when it has no
point or when a bound compares as zero or negative. All of its frequencies are admissible exactly
when it is empty, or when its bounds are finite (but for a single point only the first one counts)
and the exponential overflows at no exponent. In particular they are admissible between finite
bounds that stay clear of the greatest number. A spectrum over the grid reports only frequencies of
the grid that are not admissible, and a circuit that has an impedance reports one exactly when there
is one. -/
theorem spectrum_of_logarithmic_grid {elementary : Elementary Binary64}
    (hFaithful : IsFaithful elementary) (start stop : Binary64) {n : ℕ} (hn : n < 2 ^ 64) :
    (Grid.logarithmic start stop n = [] ↔ n = 0 ∨ start ≤ 0 ∨ stop ≤ 0) ∧
    ((∀ hertz ∈ Grid.logarithmic start stop n, Frequency.admissible hertz = true) ↔
      n = 0 ∨ start ≤ 0 ∨ stop ≤ 0 ∨
        (start.isFinite = true ∧ (n = 1 ∨ stop.isFinite = true) ∧
          ∀ exponent ∈ Grid.linear (elementary.log start) (elementary.log stop) n,
            exponent.value ≤ greatestExponent)) ∧
    (start.isFinite = true → stop.isFinite = true → (elementary.log start).value ≤ 709 →
      (elementary.log stop).value ≤ 709 →
        ∀ hertz ∈ Grid.logarithmic start stop n, Frequency.admissible hertz = true) ∧
    (∀ (circuit : Circuit Binary64) (hertz : Binary64),
      circuit.spectrum (ζ := Complex Binary64) (Grid.logarithmic start stop n) =
        .error (.circuit (.invalidFrequency hertz)) →
      hertz ∈ Grid.logarithmic start stop n ∧ Frequency.admissible hertz = false) ∧
    ∀ (precedence : Precedence) (source : String) (circuit : Circuit Binary64),
      Reached precedence source circuit → circuit.items.outcome (α := Binary64) = .ok () →
        ((∃ hertz, circuit.spectrum (ζ := Complex Binary64) (Grid.logarithmic start stop n) =
            .error (.circuit (.invalidFrequency hertz))) ↔
          ∃ hertz ∈ Grid.logarithmic start stop n, Frequency.admissible hertz = false) := by
  refine ⟨Grid.logarithmic_eq_nil_iff start stop n, Grid.logarithmic_admissible_iff hFaithful hn,
    Grid.admissible_of_log_le hFaithful hn, fun circuit hertz => admissible_eq_false_of_spectrum,
    fun precedence source circuit h hOutcome => ⟨?_, ?_⟩⟩
  · rintro ⟨hertz, hError⟩
    exact ⟨hertz, admissible_eq_false_of_spectrum hError⟩
  · rintro ⟨hertz, hMem, hHertz⟩
    exact h.exists_spectrum_eq_invalidFrequency hOutcome hMem hHertz

/-- One octave, with a coarse library: one and two hertz, which no circuit refuses. Of a grid that
starts at NaN a single resistor refuses a frequency. -/
theorem spectrum_over_one_octave :
    ∃ elementary : Elementary Binary64, IsFaithful elementary ∧
      Grid.logarithmic 1 two 2 = [1, two] ∧
      (∀ hertz ∈ Grid.logarithmic 1 two 2, Frequency.admissible hertz = true) ∧
      (∀ (circuit : Circuit Binary64) (hertz : Binary64),
        circuit.spectrum (ζ := Complex Binary64) (Grid.logarithmic 1 two 2) ≠
          .error (.circuit (.invalidFrequency hertz))) ∧
      ∃ circuit : Circuit Binary64, Reached .uniform "R" circuit ∧
        ∃ hertz, circuit.spectrum (ζ := Complex Binary64) (Grid.logarithmic nan 1 2) =
          .error (.circuit (.invalidFrequency hertz)) := by
  obtain ⟨-, -, hAll, hReported, -⟩ :=
    spectrum_of_logarithmic_grid isFaithful_coarse 1 two (show 2 < 2 ^ 64 by decide)
  obtain ⟨-, hIff, -, -, hReports⟩ :=
    spectrum_of_logarithmic_grid isFaithful_coarse nan 1 (show 2 < 2 ^ 64 by decide)
  have hAdmissible := hAll rfl rfl (by decide +kernel) (by decide +kernel)
  refine ⟨coarse, isFaithful_coarse, by decide +kernel, hAdmissible, ?_, ?_⟩
  · intro circuit hertz hError
    obtain ⟨hMem, hHertz⟩ := hReported circuit hertz hError
    exact absurd (hAdmissible hertz hMem) (by simp [hHertz])
  · have hReached : Reached .uniform "R"
        (ofPostfix (α := Binary64) "R" [.operand (.ofComponent "R1" ⟨"R", 0⟩)]) := .built rfl
    refine ⟨_, hReached, (hReports _ _ _ hReached rfl).mpr ?_⟩
    by_contra! hNone
    have hValid := hIff.mp fun hertz hMem => Bool.eq_true_of_not_eq_false (hNone hertz hMem)
    rcases hValid with h | h | h | ⟨h, -⟩ <;> exact absurd h (by decide)

/-- **NaN is not positive**, and yet it is taken for a bound. A single resistor refuses the
frequency that comes out, as it does when infinity is the bound. -/
theorem spectrum_from_undefined_bound :
    ¬(0 : Binary64) < nan ∧ Grid.logarithmic nan 1 1 = [nan] ∧
      Grid.logarithmic infinity 1 1 = [infinity] ∧
      Frequency.admissible nan = false ∧ Frequency.admissible infinity = false ∧
      ∃ circuit : Circuit Binary64, Reached .uniform "R" circuit ∧
        circuit.spectrum (ζ := Complex Binary64) (Grid.logarithmic nan 1 1) =
          .error (.circuit (.invalidFrequency nan)) ∧
        circuit.spectrum (ζ := Complex Binary64) (Grid.logarithmic infinity 1 1) =
          .error (.circuit (.invalidFrequency infinity)) :=
  ⟨by decide, rfl, rfl, rfl, rfl,
    ofPostfix (α := Binary64) "R" [.operand (.ofComponent "R1" ⟨"R", 0⟩)], .built rfl, rfl, rfl⟩

end Circuit

end EquivalentCircuit
