import EquivalentCircuit.Proofs.States
import EquivalentCircuit.Sweep.Spectrum
import Mathlib.Data.List.Forall2

/-!
# Sweeps

A sweep checks the exponents once and then takes the frequencies one after another, until one of
them fails. So it does what evaluating at each frequency on its own does, except that an exponent
for an unknown component is reported also when there is no frequency at all
(`sweepWith_of_unknown`).

A spectrum pairs the frequencies with the impedances of a sweep. There are as many of the ones as of
the others (`sweepWith_eq_ok_iff`), so that no sample is lost in pairing them.

## Main results

* `Circuit.sweepWith_eq_ok_iff` and `Circuit.sweepWith_eq_error_iff`: sweeping and evaluating.
* `Circuit.sweep_agrees_with_evaluate`: sweeps, spectra and diagrams of a circuit.
-/

universe u

namespace EquivalentCircuit

/-! ### Calls for each member of a list -/

section Calls

variable {ε α β : Type u} {call : α → Except ε β}

/-- A first call that fails ends the calls. -/
theorem mapM_cons_of_error {first : α} {error : ε} (h : call first = .error error)
    (rest : List α) : (first :: rest).mapM call = .error error := by
  rw [List.mapM_cons, h]
  rfl

/-- A first call that succeeds puts its result in front of the others. -/
theorem mapM_cons_of_ok {first : α} {result : β} (h : call first = .ok result) (rest : List α) :
    (first :: rest).mapM call = (rest.mapM call).map (result :: ·) := by
  rw [List.mapM_cons, h]
  cases rest.mapM call <;> rfl

/-- Calls for all members of a list **succeed** when each of them does, and give the results in
order. -/
theorem mapM_eq_ok_iff {inputs : List α} {results : List β} :
    inputs.mapM call = .ok results ↔
      List.Forall₂ (fun input result => call input = .ok result) inputs results := by
  induction inputs generalizing results with
  | nil =>
      rw [List.mapM_nil, List.forall₂_nil_left_iff]
      exact ⟨fun h => (Except.ok.inj h).symm, fun h => congrArg Except.ok h.symm⟩
  | cons first rest ih =>
      rw [List.forall₂_cons_left_iff]
      rcases hFirst : call first with error | result
      · simp [mapM_cons_of_error hFirst]
      · rw [mapM_cons_of_ok hFirst]
        rcases hRest : rest.mapM call with error | others
        · simp [Except.map, ← ih, hRest]
        · simp [Except.map, ← ih, hRest, eq_comm]

/-- Calls for the members of a list **fail** at the first member for which the call fails. -/
theorem mapM_eq_error_iff {inputs : List α} {error : ε} :
    inputs.mapM call = .error error ↔
      ∃ before input after, inputs = before ++ input :: after ∧
        (∀ earlier ∈ before, ∃ result, call earlier = .ok result) ∧ call input = .error error := by
  induction inputs with
  | nil => simp [pure, Except.pure]
  | cons first rest ih =>
      constructor
      · intro h
        rcases hFirst : call first with other | result
        · rw [mapM_cons_of_error hFirst] at h
          obtain rfl := Except.error.inj h
          exact ⟨[], first, rest, rfl, by simp, hFirst⟩
        · rw [mapM_cons_of_ok hFirst] at h
          rcases hRest : rest.mapM call with other | results
          · rw [hRest] at h
            obtain ⟨before, input, after, rfl, hBefore, hInput⟩ := ih.mp (hRest.trans h)
            exact ⟨first :: before, input, after, rfl,
              List.forall_mem_cons.mpr ⟨⟨result, hFirst⟩, hBefore⟩, hInput⟩
          · rw [hRest] at h
            exact absurd h (by simp [Except.map])
      · rintro ⟨before, input, after, hInputs, hBefore, hInput⟩
        rcases before with - | ⟨earlier, before⟩
        · obtain ⟨rfl, rfl⟩ := List.cons.inj hInputs
          exact mapM_cons_of_error hInput rest
        · obtain ⟨rfl, rfl⟩ := List.cons.inj hInputs
          obtain ⟨⟨result, hFirst⟩, hBefore⟩ := List.forall_mem_cons.mp hBefore
          rw [mapM_cons_of_ok hFirst, ih.mpr ⟨before, input, after, rfl, hBefore, hInput⟩]
          rfl

end Calls

/-! ### Sweeping and evaluating -/

/-- The exponent that is reported when it is the only one for an unknown component. -/
theorem Exponents.unknown?_eq_some {α : Type u} {exponents : Exponents α} {literals : List String}
    {key : String} (hKey : key ∈ exponents.map Prod.fst) (hUnknown : key ∉ literals)
    (hOnly : ∀ other ∈ exponents.map Prod.fst, other ∉ literals → other = key) :
    exponents.unknown? literals = some key := by
  rcases hFound : exponents.unknown? literals with - | other
  · have hKnown := List.find?_eq_none.mp hFound key hKey
    exact absurd (by simpa using hKnown) hUnknown
  · have hOther := List.find?_some hFound
    rw [hOnly other (List.mem_of_find?_eq_some hFound) (by simpa using hOther)]

/-- Pairing as many frequencies as impedances loses none of them. -/
theorem Sample.map_zipWith_mk {α ζ : Type u} {frequencies : List α} {impedances : List ζ}
    (h : frequencies.length = impedances.length) :
    (List.zipWith Sample.mk frequencies impedances).map Sample.frequency = frequencies ∧
      (List.zipWith Sample.mk frequencies impedances).map Sample.impedance = impedances := by
  rw [← List.map_uncurry_zip_eq_zipWith, List.map_map, List.map_map]
  exact ⟨List.map_fst_zip (Nat.le_of_eq h), List.map_snd_zip (Nat.le_of_eq h.symm)⟩

namespace Circuit

section Sweeps

variable {ζ α : Type u} [Immittance ζ α] [Zero α] [One α] [Add α] [Sub α] [Neg α] [Mul α]
  [Div α] [BEq α] [Elementary α] [LT α] [DecidableLT α] {circuit : Circuit α}
  {exponents : Exponents α}

/-- An exponent for an **unknown component** is reported whatever the frequencies are, also when
there are none. -/
theorem sweepWith_of_unknown {key : String}
    (h : exponents.unknown? circuit.literals = some key) (frequencies : List α) :
    circuit.sweepWith (ζ := ζ) exponents frequencies = .error (.unknownComponent key) := by
  rw [sweepWith, h]

/-- With exponents for its own components a circuit is swept by evaluating it at each frequency. -/
theorem sweepWith_eq_mapM (hExponents : ∀ key ∈ exponents.map Prod.fst, key ∈ circuit.literals)
    (frequencies : List α) :
    circuit.sweepWith (ζ := ζ) exponents frequencies =
      frequencies.mapM (circuit.evaluateWith exponents) := by
  have hKnown : exponents.unknown? circuit.literals = none := by
    simpa [Exponents.unknown?] using hExponents
  have hCalls : circuit.evaluateWith (ζ := ζ) exponents = circuit.impedance exponents := by
    funext frequency
    rw [evaluateWith, hKnown]
  rw [sweepWith, hKnown, hCalls]

/-- A sweep **succeeds** when every frequency does, with the impedances in the order of the
frequencies. -/
theorem sweepWith_eq_ok_iff
    (hExponents : ∀ key ∈ exponents.map Prod.fst, key ∈ circuit.literals) {frequencies : List α}
    {impedances : List ζ} :
    circuit.sweepWith exponents frequencies = .ok impedances ↔
      List.Forall₂ (fun frequency impedance =>
        circuit.evaluateWith exponents frequency = .ok impedance) frequencies impedances := by
  rw [sweepWith_eq_mapM hExponents, mapM_eq_ok_iff]

/-- A sweep **fails** at the first frequency that fails. -/
theorem sweepWith_eq_error_iff
    (hExponents : ∀ key ∈ exponents.map Prod.fst, key ∈ circuit.literals) {frequencies : List α}
    {error : CircuitError α} :
    circuit.sweepWith (ζ := ζ) exponents frequencies = .error error ↔
      ∃ before frequency after, frequencies = before ++ frequency :: after ∧
        (∀ earlier ∈ before, ∃ impedance : ζ,
          circuit.evaluateWith exponents earlier = .ok impedance) ∧
        circuit.evaluateWith (ζ := ζ) exponents frequency = .error error := by
  rw [sweepWith_eq_mapM hExponents, mapM_eq_error_iff]

/-- Where every frequency succeeds there is a sweep. -/
theorem exists_sweepWith_eq_ok
    (hExponents : ∀ key ∈ exponents.map Prod.fst, key ∈ circuit.literals) {frequencies : List α}
    (h : ∀ frequency ∈ frequencies, ∃ impedance : ζ,
      circuit.evaluateWith exponents frequency = .ok impedance) :
    ∃ impedances : List ζ, circuit.sweepWith exponents frequencies = .ok impedances := by
  rcases hSweep : circuit.sweepWith (ζ := ζ) exponents frequencies with error | impedances
  · obtain ⟨before, frequency, after, rfl, -, hError⟩ :=
      (sweepWith_eq_error_iff hExponents).mp hSweep
    obtain ⟨impedance, hOk⟩ := h frequency (by simp)
    exact absurd (hError.symm.trans hOk) (by simp)
  · exact ⟨impedances, rfl⟩

/-! ### Spectra -/

/-- A spectrum **fails** as the sweep does. -/
theorem spectrum_eq_error_iff {frequencies : List α} {error : Error α} :
    circuit.spectrum (ζ := ζ) frequencies = .error error ↔
      ∃ cause, circuit.sweep (ζ := ζ) frequencies = .error cause ∧ error = .circuit cause := by
  rw [spectrum]
  rcases circuit.sweep (ζ := ζ) frequencies with cause | impedances
  · simp [eq_comm]
  · simp

/-- A spectrum **pairs** the frequencies with the impedances of the sweep, one by one. -/
theorem exists_sweep_of_spectrum_eq_ok {frequencies : List α} {samples : List (Sample α ζ)}
    (h : circuit.spectrum frequencies = .ok samples) :
    ∃ impedances, circuit.sweep frequencies = .ok impedances ∧
      samples.map Sample.frequency = frequencies ∧ samples.map Sample.impedance = impedances := by
  rw [spectrum] at h
  rcases hSweep : circuit.sweep (ζ := ζ) frequencies with cause | impedances
  · rw [hSweep] at h
    exact absurd h (by simp)
  · rw [hSweep] at h
    obtain rfl := Except.ok.inj h
    -- No member is cut off, since there is an impedance for every frequency.
    have hPairs := (sweepWith_eq_ok_iff (by simp)).mp hSweep
    exact ⟨impedances, rfl, Sample.map_zipWith_mk hPairs.length_eq⟩

end Sweeps

/-- **Sweeps agree with evaluation.** If exactly one exponent is for a component that the circuit
does not have, a sweep reports it, whatever the frequencies are and also when there are none. With
exponents for its own components a sweep succeeds when every frequency does, and gives the
impedances at the frequencies in their order; otherwise it fails with the error of the first
frequency that fails. A spectrum fails exactly when the sweep does, with the same error. Otherwise
it has one sample for each frequency, in their order, with the impedance of the sweep at that
frequency, and both diagrams have one point for each sample. -/
theorem sweep_agrees_with_evaluate (circuit : Circuit Binary64) (exponents : Exponents Binary64)
    (frequencies : List Binary64) :
    (∀ key ∈ exponents.map Prod.fst, key ∉ circuit.literals →
      (∀ other ∈ exponents.map Prod.fst, other ∉ circuit.literals → other = key) →
        circuit.sweepWith (ζ := Complex Binary64) exponents frequencies =
          .error (.unknownComponent key)) ∧
    ((∀ key ∈ exponents.map Prod.fst, key ∈ circuit.literals) →
      ((∀ frequency ∈ frequencies, ∃ impedance : Complex Binary64,
          circuit.evaluateWith exponents frequency = .ok impedance) →
        ∃ impedances : List (Complex Binary64),
          circuit.sweepWith exponents frequencies = .ok impedances ∧
            List.Forall₂ (fun frequency impedance =>
              circuit.evaluateWith exponents frequency = .ok impedance) frequencies impedances) ∧
      ∀ before frequency after error, frequencies = before ++ frequency :: after →
        (∀ earlier ∈ before, ∃ impedance : Complex Binary64,
          circuit.evaluateWith exponents earlier = .ok impedance) →
        circuit.evaluateWith (ζ := Complex Binary64) exponents frequency = .error error →
          circuit.sweepWith (ζ := Complex Binary64) exponents frequencies = .error error) ∧
    (∀ error, circuit.spectrum (ζ := Complex Binary64) frequencies = .error error ↔
      ∃ cause, circuit.sweep (ζ := Complex Binary64) frequencies = .error cause ∧
        error = .circuit cause) ∧
    ∀ samples : List (Sample Binary64 (Complex Binary64)),
      circuit.spectrum frequencies = .ok samples →
        ∃ impedances, circuit.sweep frequencies = .ok impedances ∧
          samples.map Sample.frequency = frequencies ∧
          samples.map Sample.impedance = impedances ∧
          bode samples = List.zipWith (fun frequency impedance =>
            (frequency, impedance.abs, impedance.arg * Binary64.degreesPerRadian))
              frequencies impedances ∧
          nyquist samples = impedances.map (fun impedance => (impedance.re, -impedance.im)) ∧
          (bode samples).length = frequencies.length ∧
          (nyquist samples).length = frequencies.length := by
  refine ⟨fun key hKey hUnknown hOnly => ?_, fun hExponents => ⟨fun hOk => ?_, ?_⟩,
    fun error => spectrum_eq_error_iff, fun samples hSamples => ?_⟩
  · exact sweepWith_of_unknown (Exponents.unknown?_eq_some hKey hUnknown hOnly) frequencies
  · obtain ⟨impedances, hSweep⟩ := exists_sweepWith_eq_ok hExponents hOk
    exact ⟨impedances, hSweep, (sweepWith_eq_ok_iff hExponents).mp hSweep⟩
  · intro before frequency after error hSplit hBefore hError
    exact (sweepWith_eq_error_iff hExponents).mpr
      ⟨before, frequency, after, hSplit, hBefore, hError⟩
  · obtain ⟨impedances, hSweep, rfl, rfl⟩ := exists_sweep_of_spectrum_eq_ok hSamples
    refine ⟨_, hSweep, rfl, rfl, ?_, ?_, by simp [bode], by simp [nyquist]⟩
    · rw [List.zipWith_map, List.zipWith_self]
      rfl
    · rw [nyquist, List.map_map]
      rfl

/-- A single resistor. An exponent for `Q1` is refused without any frequency, a sweep over zero and
one hertz succeeds, and in a sweep with two bad frequencies the first one is reported. -/
theorem sweep_of_single_resistor :
    ∃ circuit : Circuit Binary64, Reached .uniform "R" circuit ∧
      circuit.components = [("R1", 1)] ∧
      circuit.sweepWith (ζ := Complex Binary64) [("Q1", 1)] [] = .error (.unknownComponent "Q1") ∧
      (∃ impedances : List (Complex Binary64),
        circuit.sweepWith [("R1", 0)] [0, 1] = .ok impedances ∧
          List.Forall₂ (fun frequency impedance =>
            circuit.evaluateWith [("R1", 0)] frequency = .ok impedance) [0, 1] impedances) ∧
      circuit.sweepWith (ζ := Complex Binary64) [("R1", 0)] [0, Binary64.infinity, -1, 1] =
        .error (.invalidFrequency Binary64.infinity) ∧
      ∃ samples : List (Sample Binary64 (Complex Binary64)),
        circuit.spectrum [0, 1] = .ok samples ∧ samples.map Sample.frequency = [0, 1] ∧
          nyquist samples = [(1, -0), (1, -0)] := by
  have hReached : Reached .uniform "R"
      (ofPostfix (α := Binary64) "R" [.operand (.ofComponent "R1" ⟨"R", 0⟩)]) := .built rfl
  obtain ⟨hUnknown, -, -, -⟩ := sweep_agrees_with_evaluate
    (ofPostfix "R" [.operand (.ofComponent "R1" ⟨"R", 0⟩)]) [("Q1", 1)] []
  obtain ⟨-, hOk, -, hSpectrum⟩ := sweep_agrees_with_evaluate
    (ofPostfix "R" [.operand (.ofComponent "R1" ⟨"R", 0⟩)]) [("R1", 0)] [0, 1]
  obtain ⟨-, hError, -, -⟩ := sweep_agrees_with_evaluate
    (ofPostfix "R" [.operand (.ofComponent "R1" ⟨"R", 0⟩)]) [("R1", 0)]
    [0, Binary64.infinity, -1, 1]
  refine ⟨_, hReached, rfl, ?_, ?_, ?_, ?_⟩
  · exact hUnknown "Q1" (by decide) (by decide) (by decide)
  · exact (hOk (by decide)).1 (by simpa using ⟨⟨_, rfl⟩, ⟨_, rfl⟩⟩)
  · exact (hError (by decide)).2 [0] Binary64.infinity [-1, 1] _ rfl (by simpa using ⟨_, rfl⟩) rfl
  · obtain ⟨impedances, hSweep, hFrequencies, -, -, hCurve, -⟩ := hSpectrum _ rfl
    obtain rfl := Except.ok.inj hSweep
    exact ⟨_, rfl, hFrequencies, hCurve⟩

end Circuit

end EquivalentCircuit
