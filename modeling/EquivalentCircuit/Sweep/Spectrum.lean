import EquivalentCircuit.Circuit.Evaluation
import EquivalentCircuit.Error

/-!
# Impedance Spectra

The **spectrum** of a circuit over a list of frequencies: a sample for each frequency. A Bode
diagram shows absolute value and phase over the frequency, a Nyquist diagram the negative
imaginary part over the real part.
-/

universe u

namespace EquivalentCircuit

/-- A **sample**: the impedance at one frequency in hertz. -/
structure Sample (α ζ : Type u) where
  frequency : α
  impedance : ζ

/-- The samples of a circuit at given frequencies, or the error of the sweep. -/
def Circuit.spectrum {ζ α : Type u} [Immittance ζ α] [Zero α] [One α] [Add α] [Sub α] [Neg α]
    [Mul α] [Div α] [BEq α] [Elementary α] [LT α] [DecidableLT α] (circuit : Circuit α)
    (frequencies : List α) : Except (Error α) (List (Sample α ζ)) :=
  match circuit.sweep frequencies with
  | .ok impedances => .ok (List.zipWith Sample.mk frequencies impedances)
  | .error error => .error (.circuit error)

namespace Sample

/-- The absolute value of the impedance, in ohms. -/
def magnitude (sample : Sample Binary64 (Complex Binary64)) : Binary64 :=
  sample.impedance.abs

/-- The phase of the impedance in degrees. It is negative where the impedance is capacitive. -/
def phaseDegrees (sample : Sample Binary64 (Complex Binary64)) : Binary64 :=
  sample.impedance.arg * Binary64.degreesPerRadian

/-- The point of the **Nyquist diagram**: the real part and the negated imaginary part. -/
def nyquist {α : Type u} [Neg α] (sample : Sample α (Complex α)) : α × α :=
  (sample.impedance.re, -sample.impedance.im)

end Sample

/-- The rows of a **Bode diagram**: frequency, absolute value and phase in degrees. -/
def bode (samples : List (Sample Binary64 (Complex Binary64))) :
    List (Binary64 × Binary64 × Binary64) :=
  samples.map fun sample => (sample.frequency, sample.magnitude, sample.phaseDegrees)

/-- The curve of a **Nyquist diagram**. -/
def nyquist {α : Type u} [Neg α] (samples : List (Sample α (Complex α))) : List (α × α) :=
  samples.map Sample.nyquist

end EquivalentCircuit
